import Perdition.Auth
import Perdition.Capability
import Perdition.Queue
import Perdition.Write

/-!
# IMAP: reading credentials from the client

`imap4_in.c` without `imap4_in_authenticate`. The loop of `imap4_in_get_auth` keeps nothing from one
command to the next.
-/
namespace Perdition

/-- `TOKEN_NO_STRIP` or a character to strip. -/
def noStrip : Option Byte := none

/-- What `in_get_auth` returns, and what it stores through its pointers when it succeeds. -/
structure InAuth where
  /-- 0 for credentials, 1 for a client that quits, 2 for TLS negotiation, negative for an error. -/
  status : Int
  /-- `*return_auth`, where it is stored. -/
  auth : Option Auth
  /-- `*return_tag`, where it is stored. -/
  tag : Option Token
  deriving DecidableEq

/-- An end without credentials. -/
def InAuth.plain (status : Int) : InAuth := ⟨status, none, none⟩

/-- One round of a command loop: go on, or return. -/
abbrev Round := Dialogue (Unit ⊕ InAuth)

/-- Read the next command. -/
def nextRound : Round := return .inl ()

/-- Leave the function. -/
def leave (status : Int) : Round := return .inr (InAuth.plain status)

/-! ## Literals -/

/-- What `imap4_token_is_literal` returns, and the count it stores. -/
inductive Imap4Literal where
  /-- `IMAP4_QUOTED_STRING`: no literal. -/
  | quotedString
  /-- `IMAP4_SYNCHRONISING_TOKEN` or `IMAP4_NON_SYNCHRONISING_TOKEN`, of so many bytes. -/
  | literal (synchronising : Bool) (count : Nat)
  /-- The count is out of range. -/
  | error
  deriving DecidableEq, Repr

/-- The text of `imap4_token_is_literal` after the quotes are stripped. -/
def imap4LiteralText (platform : Platform) (str : List Byte) : Imap4Literal :=
  if str.head? ≠ some 123 ∨ str.getLast? ≠ some 125 then .quotedString
  else
    let inner := str.dropLast
    let synchronising := inner.getLast? ≠ some 43
    let digits := cstr ((if synchronising then inner else inner.dropLast).drop 1)
    if !platform.strIsDigit digits then .quotedString
    else
      let count := strtoul digits
      if count = ulongMax then .error else .literal synchronising count

/-- `imap4_token_is_literal`. -/
def imap4TokenIsLiteral (platform : Platform) (t : Token) : Option Imap4Literal :=
  if !t.isEol then some .quotedString
  else (tokenToString t (some dquote)).map fun str => imap4LiteralText platform str.content

/-- The statuses of `imap4_token_wrapper` that are not errors. -/
inductive Imap4Type where
  /-- `IMAP4_QUOTED_STRING`. -/
  | quotedString
  /-- `IMAP4_SYNCHRONISING_TOKEN`. -/
  | synchronising
  /-- `IMAP4_NON_SYNCHRONISING_TOKEN`. -/
  | nonSynchronising
  deriving DecidableEq, Repr

/-- `imap4_token_wrapper`: the type of the token, and the token or the bytes of the literal. The
result of writing the continuation is ignored. -/
def imap4TokenWrapper (platform : Platform) (q : Queue) (t : Token) :
    Dialogue (Option (Imap4Type × Token)) :=
  match imap4TokenIsLiteral platform t with
  | none => fault .tokenToString
  | some .error => return none
  | some .quotedString => return some (.quotedString, t)
  | some (.literal synchronising count) =>
    if q.length ≠ 0 then return none
    else do
      if synchronising then
        let _ ← imap4WriteStr nullFlag (some ⟨bytes "+", tokenNone⟩) (some (lit "OK"))
          (some (lit "ready for additional input"))
      let type : Imap4Type := if synchronising then .synchronising else .nonSynchronising
      if count = 0 then return some (type, ⟨[], tokenNone⟩)
      else match ← tokenRead none tokenImap4Literal count with
        | none => return none
        | some (t, _) => return some (type, t)

/-- The replacements that `imap4_token_to_string` makes in a quoted string. -/
def imap4Unescape : List (CString × CString) :=
  [(lit "\\\"", lit "\""), (lit "\\\\", lit "\\")]

/-- `imap4_token_to_string`. -/
def imap4TokenToString (t : Token) (type : Imap4Type) : Option CString :=
  if type = .quotedString then do strReplace (← tokenToString t (some dquote)) imap4Unescape
  else tokenToString t noStrip

/-! ## Commands -/

/-- A byte that `imap4_in_verify_tag_str` refuses. -/
def imap4TagRefuses (b : Byte) : Bool :=
  b ≤ 0x1f || b ≥ 0x7f || (bytes "()\x7b %*\"\\]").contains b

/-- `imap4_in_verify_tag_str` accepts a tag. A `char` from 0x80 on is refused whether it is signed
or not. -/
def imap4InVerifyTagStr (tag : Token) : Bool :=
  tag.len ≠ 0 && tag.buf.all fun b => !imap4TagRefuses b

/-- `__IMAP4_IN_BAD`. -/
def imap4InBad (tag : Token) (reason : CString) : Round := do
  if (← imap4WriteStr nullFlag (some tag) (some (lit "BAD")) (some reason)) < 0 then leave (-1)
  else nextRound

/-- `__IMAP4_IN_GET_PW_LOGIN_SYNTAX_ERROR`. -/
def imap4InLoginSyntaxError (tag : Token) : Round :=
  imap4InBad tag (lit "Mate, try LOGIN <username> <passwd>")

/-- `__IMAP4_IN_CHECK_NO_ARG`, then the rest of the command. -/
def imap4InCheckNoArg (tag : Token) (q : Queue) (command : CString) (rest : Round) : Round :=
  if q.length ≠ 0 then
    imap4InBad tag (lit "Argument given to " ++ command ++ lit " but there shouldn't be one, mate")
  else rest

/-- `imap4_in_noop_cmd`. -/
def imap4InNoopCmd (tag : Token) : Dialogue Int := do
  if (← imap4WriteStr nullFlag (some tag) (some (lit "OK")) (some (lit "NOOP"))) < 0 then
    return -1
  else return 0

/-- `imap4_in_logout_cmd`. -/
def imap4InLogoutCmd (tag : Token) : Dialogue Int := do
  if (← imap4WriteStr nullFlag none (some (lit "BYE"))
      (some (lit "IMAP4 server logging out, mate"))) < 0 then return -1
  else if (← imap4WriteStr nullFlag (some tag) (some (lit "OK")) (some (lit "LOGOUT"))) < 0 then
    return -1
  else return 0

/-- `imap4_in_capability_cmd`: a failed write is no error. -/
def imap4InCapabilityCmd (opt : Options) (tag : Token) (tlsFlags tlsState : Flag) :
    Dialogue Int :=
  match imap4Capability opt tlsFlags tlsState with
  | none => fault .substring
  | some capability => do
    if (← imap4WriteStr nullFlag none (some (lit "CAPABILITY")) (some capability)) < 0 then
      return 0
    else
      let _ ← imap4WriteStr nullFlag (some tag) (some (lit "OK")) (some (lit "CAPABILITY"))
      return 0

/-- `imap4_in_authenticate_cmd`. -/
def imap4InAuthenticateCmd (tag : Token) : Dialogue Int := do
  if (← imap4WriteStr nullFlag (some tag) (some (lit "NO"))
      (some (lit "AUTHENTICATE mechanism not supported, mate"))) < 0 then return -1
  else return 0

/-- The password of `LOGIN`, once the user name is known. The status is the one that reading the
user name left. -/
def imap4InLoginPasswd (platform : Platform) (tag : Token) (q : Queue) (status : Imap4Type)
    (name : CString) : Round :=
  match q with
  | [t] => do
    match ← imap4TokenWrapper platform [] t with
    | none => imap4InLoginSyntaxError tag
    | some (_, t) =>
      if t.len = 0 then imap4InLoginSyntaxError tag
      else match imap4TokenToString t status with
        | none => fault .tokenToString
        | some passwd => return .inr ⟨0, some (Auth.setPwd (some name) (some passwd)), some tag⟩
  | _ => imap4InLoginSyntaxError tag

/-- The user name of `LOGIN` from the token that carries it, then the password. -/
def imap4InLoginName (platform : Platform) (tag : Token) (q : Queue) (status : Imap4Type)
    (t : Token) : Round :=
  if t.len = 0 then imap4InLoginSyntaxError tag
  else match imap4TokenToString t status with
    | none => fault .tokenToString
    | some name => imap4InLoginPasswd platform tag q status name

/-- The `LOGIN` branch of `imap4_in_get_auth`, with the queue of its arguments. -/
def imap4InLogin (platform : Platform) (tag : Token) (q : Queue) : Round :=
  if q.length ≠ 2 ∧ q.length ≠ 1 then imap4InLoginSyntaxError tag
  else match q with
    | [] => leave (-1)
    | t :: q => do
      match ← imap4TokenWrapper platform q t with
      | none => imap4InLoginSyntaxError tag
      | some (.quotedString, t) => imap4InLoginName platform tag q .quotedString t
      | some (status, t) =>
        -- the rest of the line after a literal: a space and the password
        match ← readLine none tokenImap4 0 with
        | none => leave (-1)
        | some (q, _) => match q with
          | [_, passwd] => imap4InLoginName platform tag [passwd] status t
          | _ => imap4InLoginSyntaxError tag

/-- The `STARTTLS` branch of `imap4_in_get_auth`. -/
def imap4InStarttls (opt : Options) (tag : Token) : Round := do
  if !opt.sslMode.has sslModeTlsListen then imap4InBad tag (lit "STARTTLS disabled, mate")
  else if (← ioGetType) ≠ .ssl then
    if (← imap4WriteStr nullFlag (some tag) (some (lit "OK"))
        (some (lit "Begin TLS negotiation now"))) < 0 then leave (-1)
    else leave 2
  else imap4InBad tag (lit "SSL already active, mate")

/-- Answer a command, and leave when that fails. -/
def imap4InAnswer (command : Dialogue Int) : Round := do
  if (← command) ≠ 0 then leave (-1) else nextRound

/-- A command of `imap4_in_get_auth`: its tag, its word and its arguments. -/
def imap4InCommand (opt : Options) (platform : Platform) (tlsFlags tlsState : Flag)
    (tag t : Token) (q : Queue) : Round :=
  if t.isNull then imap4InBad tag (lit "Null command, mate")
  else if tokenCasecmpString t (lit "NOOP") then
    imap4InCheckNoArg tag q (lit "NOOP") (imap4InAnswer (imap4InNoopCmd tag))
  else if tokenCasecmpString t (lit "STARTTLS") then
    imap4InCheckNoArg tag q (lit "STARTTLS") (imap4InStarttls opt tag)
  else if tokenCasecmpString t (lit "CAPABILITY") then
    imap4InCheckNoArg tag q (lit "CAPABILITY")
      (imap4InAnswer (imap4InCapabilityCmd opt tag tlsFlags tlsState))
  else if tokenCasecmpString t (lit "AUTHENTICATE") then
    if q.length ≠ 1 then imap4InBad tag (lit "Mate, try AUTHENTICATE <mechanism>")
    else imap4InAnswer (imap4InAuthenticateCmd tag)
  else if tokenCasecmpString t (lit "LOGOUT") then
    imap4InCheckNoArg tag q (lit "LOGOUT") do
      if (← imap4InLogoutCmd tag) ≠ 0 then leave (-1) else leave 1
  else if tokenCasecmpString t (lit "LOGIN") then imap4InLogin platform tag q
  else imap4InBad tag (lit "Unrecognised command, mate")

/-- One round of the loop of `imap4_in_get_auth`. -/
def imap4InRound (opt : Options) (platform : Platform) (tlsFlags tlsState : Flag) : Round := do
  match ← readLine none tokenImap4 0 with
  | none => leave (-1)
  | some (q, _) => match q with
    | [] => leave (-1)
    | tag :: q =>
      if !imap4InVerifyTagStr tag then
        imap4InBad ⟨imap4Untagged, tokenNone⟩ (lit "Invalid tag, mate")
      else if tag.isEol then imap4InBad tag (lit "Missing command, mate")
      else match q with
        | [] => leave (-1)
        | t :: q => imap4InCommand opt platform tlsFlags tlsState tag t q

/-- `imap4_in_get_auth`. -/
def imap4InGetAuth (opt : Options) (platform : Platform) (tlsFlags tlsState : Flag) :
    Dialogue InAuth :=
  .loop (fun _ => imap4InRound opt platform tlsFlags tlsState) ()

end Perdition
