import Perdition.Acap
import Perdition.Imap4Out

/-!
# POP3 and ManageSieve: logging in to the real server

`pop3_out.c` and `managesieve_out.c`, which reads its responses with `pop3_out_response`.
-/
namespace Perdition

/-! ## POP3 -/

/-- `pop3_out_response`. -/
def pop3OutResponse (desired : Token) (capture : Option Capture) : Exchange Response := do
  match ← (readLineInto capture tokenPop3 0).with .server with
  | none => return ⟨-1, [], capture⟩
  | some (q, capture) => match q with
    | [] => return ⟨-1, [], capture⟩
    | t :: q => return ⟨if tokenCmp desired t then 1 else 0, q, capture⟩

/-- The token for `POP3_OK`. -/
def pop3OkToken : Token := litToken "+OK" tokenDontCare

/-- The loop of `pop3_out_setup` over the capabilities: whether STLS is one, and whether the end of
the list was read. -/
def pop3OutCapabilities : Exchange (Bool × Bool) :=
  .loop (fun found => do
    match ← (readLine none tokenPop3 0).with .server with
    | none => return .inr (found, false)
    | some (q, _) => match q with
      | [] => return .inr (found, false)
      | t :: _ =>
        let found := found || tokenCmp (litToken "STLS" tokenEol) t
        if tokenCmp (litToken "." tokenEol) t then return .inr (found, true)
        else return .inl found)
    false

/-- The status of `pop3_out_setup` where the greeting was accepted. -/
def pop3OutStatus (starttls : Bool) : Int :=
  (if starttls then protocolSOk ||| protocolSStarttls else protocolSOk : Nat)

/-- The part of `pop3_out_setup` after the greeting. The status of the greeting is returned by every
path, and with it the bits found so far: errors and a refused STLS are not reported, and whether TLS
is required makes no difference. -/
def pop3OutStls : Exchange Int := do
  if (← (pop3WriteStr nullFlag (some (lit "CAPA")) none).with .server) < 0 then
    return pop3OutStatus false
  else
    let response ← pop3OutResponse pop3OkToken none
    if response.status < 1 then return pop3OutStatus false
    else
      let (found, complete) ← pop3OutCapabilities
      if !complete then return pop3OutStatus found
      else if !found then return pop3OutStatus false
      else if (← (pop3WriteStr nullFlag (some (lit "STLS")) none).with .server) < 0 then
        return pop3OutStatus true
      else
        let _ ← pop3OutResponse pop3OkToken none
        return pop3OutStatus true

/-- `pop3_out_setup`. -/
def pop3OutSetup (opt : Options) (platform : Platform) : Exchange Int := do
  let response ← pop3OutResponse pop3OkToken none
  if response.status < 1 then return response.status
  else match queueToString response.q with
    | none => Exchange.fault .queueToString
    | some readString => match greetingStr platform (lit "POP3 perditon ready on") with
      | none => return -1
      | some greeting =>
        if platform.strcmp readString greeting = 0 then return 0
        else if !opt.sslMode.has sslModeTlsOutgoing then return pop3OutStatus false
        else pop3OutStls

/-- `pop3_out_authenticate`. -/
def pop3OutAuthenticate (auth : Auth) (tag : Token) (capture : Option Capture) :
    Exchange OutAuth := do
  if (← (pop3WriteStr nullFlag (some (lit "USER")) auth.authenticationId).with .server) < 0 then
    return ⟨-1, tag, capture⟩
  else
    let user ← pop3OutResponse pop3OkToken none
    if user.status < 0 then return ⟨-1, tag, capture⟩
    else if user.status = 0 then return ⟨0, tag, capture⟩
    else if (← (pop3WriteStr nullFlag (some (lit "PASS")) auth.passwd).with .server) < 0 then
      return ⟨-1, tag, capture⟩
    else
      let pass ← pop3OutResponse pop3OkToken capture
      return ⟨pass.status, tag, pass.capture⟩

/-! ## ManageSieve -/

/-- `read_ok`. -/
def readOk (capture : Option Capture) : Exchange Response :=
  pop3OutResponse (litToken "OK" tokenDontCare) capture

/-- The locals of `managesieve_out_capability` between two strings. -/
structure CapabilityState where
  /-- `q`, the rest of the line. -/
  q : Option Queue
  /-- `protocol_status`. -/
  status : Nat
  /-- `is_capability`. -/
  isCapability : Bool
  /-- `is_sasl`. -/
  isSasl : Bool

/-- What one string of the capabilities does to the locals. A list of SASL mechanisms counts as
having PLAIN where the word is not found. -/
def CapabilityState.read (state : CapabilityState) (str : CString) (q : Option Queue) :
    CapabilityState :=
  let state :=
    if state.isCapability then
      if str = lit "STARTTLS" then { state with status := state.status ||| protocolSStarttls }
      else if str = lit "SASL" then { state with isSasl := true }
      else state
    else if state.isSasl && (strcaseword str (lit "PLAIN")).isNone then
      { state with status := state.status ||| protocolSSaslPlain }
    else state
  if q.isNone then ⟨none, state.status, true, false⟩ else ⟨q, state.status, false, state.isSasl⟩

/-- The next string of a line of `managesieve_out_capability`. -/
def managesieveOutString (platform : Platform) (state : CapabilityState) (q : Queue) :
    Exchange (CapabilityState ⊕ Int) := do
  let w ← (acapTokenWrapper platform q).with .server
  if w.status ≠ 0 then return .inr (-1)
  else match w.str with
    | none => Exchange.fault .nullPointer
    | some str =>
      if w.type = .atom then
        return .inr (if str = lit "OK" then (state.status : Int) else 0)
      else return .inl (state.read str w.q)

/-- `managesieve_out_capability`. -/
def managesieveOutCapability (platform : Platform) : Exchange Int :=
  .loop (fun state => match state.q with
    | some q => managesieveOutString platform state q
    | none => do
      match ← (readLine none tokenImap4 0).with .server with
      | none => return .inr (-1)
      | some (q, _) => managesieveOutString platform state q)
    (⟨none, protocolSOk, true, false⟩ : CapabilityState)

/-- `managesieve_out_setup`. The bit for STARTTLS is toggled where TLS is not wanted. -/
def managesieveOutSetup (opt : Options) (platform : Platform) : Exchange Int := do
  let status ← managesieveOutCapability platform
  if status < 1 then return status
  else if !opt.sslMode.has sslModeTlsOutgoing then
    return (status.toNat ^^^ protocolSStarttls : Nat)
  else if !statusHas status protocolSStarttls then
    if opt.sslMode.has sslModeTlsOutgoingForce then return -1 else return status
  else if (← (managesieveWrite perditionClient (lit "STARTTLS") none none).with .server) < 0 then
    return -1
  else
    let response ← readOk none
    if response.status < 1 then return response.status else return status

/-- `sasl_plain`. -/
def saslPlain (platform : Platform) (auth : Auth) (tag : Token) (capture : Option Capture) :
    Exchange OutAuth :=
  match saslPlainChallengeEncode platform auth with
  | none => Exchange.fault .nullPointer
  | some challenge => do
    if (← (managesieveWrite perditionClient (lit "AUTHENTICATE \"PLAIN\"") none
        (some challenge)).with .server) < 0 then return ⟨-1, tag, capture⟩
    else
      let response ← readOk capture
      return ⟨response.status, tag, response.capture⟩

/-- `managesieve_out_authenticate` once the mechanisms are known. -/
def managesieveOutLogin (platform : Platform) (auth : Auth) (saslMech : Int) (tag : Token)
    (capture : Option Capture) : Exchange OutAuth :=
  if !statusHas saslMech protocolSSaslPlain then return ⟨3, tag, capture⟩
  else saslPlain platform auth tag capture

/-- A status in a variable of type `flag_t`, which has 32 bits and no sign. -/
def flagOfStatus (status : Int) : Nat := (status % 4294967296).toNat

/-- `managesieve_out_authenticate`. The mechanisms that are read again are held as a `flag_t`. -/
def managesieveOutAuthenticate (platform : Platform) (tlsState : Flag) (auth : Auth)
    (saslMech : Int) (tag : Token) (capture : Option Capture) : Exchange OutAuth := do
  if tlsState.has sslModeTlsOutgoing then
    let saslMech := flagOfStatus (← managesieveOutCapability platform)
    if saslMech < 1 then return ⟨saslMech, tag, capture⟩
    else managesieveOutLogin platform auth (saslMech &&& protocolSSaslPlain : Nat) tag capture
  else managesieveOutLogin platform auth saslMech tag capture

end Perdition
