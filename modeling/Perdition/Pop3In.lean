import Perdition.Imap4In

/-!
# POP3: reading credentials from the client

`pop3_in.c` without `pop3_in_authenticate`. The loop of `pop3_in_get_auth` keeps the name of the
last `USER` command. The macro `__POP3_IN_ERR` breaks only out of its own `do … while (0)` when its
write fails, so the code after it runs then as if the error had not been found.
-/
namespace Perdition

/-- One round of the loop of `pop3_in_get_auth`: go on with a name, or return. -/
abbrev Pop3Round := Dialogue (Option CString ⊕ InAuth)

/-- `pop3_in_err` with `"%s"`. -/
def pop3InErr (reason : CString) : Dialogue Int :=
  pop3Write nullFlag (some (lit "-ERR")) 1 (some (lit "%s")) [.str reason]

/-- `__POP3_IN_ERR` under a condition, and the code after it. -/
def pop3InErrIf (condition : Bool) (reason : CString) (name : Option CString)
    (rest : Pop3Round) : Pop3Round :=
  if condition then do
    if (← pop3InErr reason) < 0 then rest else return .inl name
  else rest

/-- `__POP3_IN_INVALID_CMD`, with `pop3_in_invalid_cmd`. -/
def pop3InInvalidCmd (opt : Options) (message : CString) (name : Option CString) : Pop3Round := do
  let type ← if opt.sslMode.has sslModeTlsListen then ioGetType else pure .ssl
  let extra := if type ≠ .ssl then lit "STLS, " else .empty
  if (← pop3Write nullFlag (some (lit "-ERR")) 2
      (some (lit "Mate, %smust be one of %sCAPA, USER, PASS or QUIT"))
      [.str message, .str extra]) < 0 then
    return .inr (InAuth.plain (-1))
  else return .inl name

/-- The `USER` branch of `pop3_in_get_auth`, with the queue of its arguments. -/
def pop3InUser (q : Queue) (name : Option CString) : Pop3Round :=
  pop3InErrIf (q.length ≠ 1) (lit "Mate, try: USER <username>") name <|
  match q with
  | [] => return .inr (InAuth.plain (-1))
  | t :: _ =>
    pop3InErrIf t.isNull (lit "Mate, try: USER <username>") name <|
    match tokenToString t noStrip with
    | none => fault .tokenToString
    | some name => do
      let _ ← pop3WriteStr nullFlag (some (lit "+OK"))
        (some (lit "USER " ++ name ++ lit " set, mate"))
      return .inl (some name)

/-- The `PASS` branch of `pop3_in_get_auth`. -/
def pop3InPass (q : Queue) (name : Option CString) : Pop3Round :=
  pop3InErrIf name.isNone (lit "USER not yet set, mate") name <|
  pop3InErrIf q.isEmpty (lit "Mate, try: PASS <password>") name <|
  match queueToString q with
  | none => fault .queueToString
  | some passwd => return .inr ⟨0, some (Auth.setPwd name (some passwd)), none⟩

/-- The `QUIT` branch of `pop3_in_get_auth`. -/
def pop3InQuit (q : Queue) (name : Option CString) : Pop3Round :=
  pop3InErrIf (!q.isEmpty) (lit "Mate, try: QUIT") name do
    if (← pop3WriteStr nullFlag (some (lit "+OK")) (some (lit "QUIT"))) < 0 then
      return .inr (InAuth.plain (-1))
    else return .inr (InAuth.plain 1)

/-- `strncasecmp` of the bytes of a command and its name. -/
def pop3IsCmd (t : Token) (command : CString) : Bool := strncaseEq t.buf command.content t.len

/-- The branches of `pop3_in_get_auth` after `CAPA` and `STLS`. -/
def pop3InLoginCmd (opt : Options) (t : Token) (q : Queue) (name : Option CString) : Pop3Round :=
  if pop3IsCmd t (lit "USER") then pop3InUser q name
  else if pop3IsCmd t (lit "PASS") then pop3InPass q name
  else if pop3IsCmd t (lit "QUIT") then pop3InQuit q name
  else pop3InInvalidCmd opt (lit "the command ") name

/-- The `STLS` branch of `pop3_in_get_auth`. -/
def pop3InStls (opt : Options) (t : Token) (q : Queue) (name : Option CString) : Pop3Round :=
  pop3InErrIf (q.length ≠ 0) (lit "Mate, try: STLS") name do
    if (← ioGetType) ≠ .ssl then
      let _ ← pop3WriteStr nullFlag (some (lit "+OK")) (some (lit "Begin TLS negotiation, mate"))
      return .inr (InAuth.plain 2)
    else
      pop3InErrIf true (lit "TLS already active, mate") name (pop3InLoginCmd opt t q name)

/-- The `CAPA` branch of `pop3_in_get_auth`. -/
def pop3InCapa (capability : CString) (q : Queue) (name : Option CString) : Pop3Round :=
  pop3InErrIf (q.length ≠ 0) (lit "Mate, try: CAPA") name do
    let _ ← pop3Write writeStrNoCllf (some (lit "+OK")) 1
      (some (lit "Capability list follows, mate\r\n%s")) [.str capability]
    return .inl name

/-- A command of `pop3_in_get_auth`: its word and its arguments. -/
def pop3InCommand (opt : Options) (capability : CString) (t : Token) (q : Queue)
    (name : Option CString) : Pop3Round :=
  pop3InErrIf t.isNull (lit "Null command, mate") name <|
  if t.len ≠ 4 then pop3InInvalidCmd opt (lit "the command is too short, ") name
  else if pop3IsCmd t (lit "CAPA") then pop3InCapa capability q name
  else if opt.sslMode.has sslModeTlsListen && pop3IsCmd t (lit "STLS") then
    pop3InStls opt t q name
  else pop3InLoginCmd opt t q name

/-- One round of the loop of `pop3_in_get_auth`. -/
def pop3InRound (opt : Options) (capability : CString) (name : Option CString) : Pop3Round := do
  match ← readLine none tokenPop3 0 with
  | none => return .inr (InAuth.plain (-1))
  | some (q, _) => match q with
    | [] => return .inr (InAuth.plain (-1))
    | t :: q => pop3InCommand opt capability t q name

/-- `pop3_in_get_auth`. -/
def pop3InGetAuth (opt : Options) (tlsFlags tlsState : Flag) : Dialogue InAuth :=
  match pop3InCapability opt tlsFlags tlsState with
  | none => fault .substring
  | some capability => .loop (pop3InRound opt capability) (none : Option CString)

end Perdition
