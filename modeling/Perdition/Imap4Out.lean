import Perdition.Auth
import Perdition.Capability
import Perdition.Queue
import Perdition.Write

/-!
# IMAP: logging in to the real server

`imap4_tag.c` and `imap4_out.c`. The tag of the program is passed along, since every command that is
answered moves it on.
-/
namespace Perdition

/-! ## Statuses of `out_setup` -/

/-- `PROTOCOL_S_OK`. -/
def protocolSOk : Nat := 0x01

/-- `PROTOCOL_S_STARTTLS`. -/
def protocolSStarttls : Nat := 0x02

/-- `PROTOCOL_S_SASL_PLAIN`. -/
def protocolSSaslPlain : Nat := 0x08

/-- A bit of a status that is not negative. -/
def statusHas (status : Int) (bit : Nat) : Bool := status.toNat &&& bit != 0

/-- `TOKEN_DONT_CARE`. -/
def tokenDontCare : Flag := 0x03

/-- A token of a source literal. -/
def litToken (text : String) (flag : Flag) : Token := ⟨bytes text, flag⟩

/-! ## Tags -/

/-- `imap4_tag_create`. -/
def imap4TagCreate : Token := litToken "flim07" tokenNone

/-- The character after a character of a tag, and whether the one before it stays. -/
def imap4TagNext (c : Byte) : Byte × Bool :=
  if isDigit c then (if c = 57 then 97 else c + 1, true)
  else if isLower c then (if c = 122 then 65 else c + 1, true)
  else if isUpper c && c ≠ 90 then (c + 1, true)
  else (48, false)

/-- The loop of `imap4_tag_inc`, over the characters from the last one on. -/
def imap4TagIncFrom : List Byte → List Byte
  | [] => []
  | c :: before =>
    let (next, last) := imap4TagNext c
    if last then next :: before else next :: imap4TagIncFrom before

/-- `imap4_tag_inc`. -/
def imap4TagInc (tag : Token) : Token :=
  { tag with buf := (imap4TagIncFrom tag.buf.reverse).reverse }

/-! ## Responses -/

/-- The token is `IMAP4_UNTAGGED`. -/
def isUntagged (t : Token) : Bool := t.buf = imap4Untagged

/-- `imap4_out_write_queue`. -/
def imap4OutWriteQueue (tag : Token) (q : Queue) : Dialogue Int :=
  match q with
  | [] => return -1
  | cmd :: q => match tokenToString cmd none, queueToString q with
    | some cmdStr, some infoStr => do
      if (← imap4WriteStr nullFlag (some tag) (some cmdStr) (some infoStr)) < 0 then return -1
      else return 0
    | _, _ => fault .queueToString

/-- What `imap4_out_response` and `pop3_out_response` return. -/
structure Response where
  /-- 1 for the desired token, 0 for another, -1 on error. -/
  status : Int
  /-- The rest of the line. -/
  q : Queue
  /-- The buffer. -/
  capture : Option Capture
  deriving DecidableEq

/-- The second token of a response is checked. -/
def imap4OutCheck (desired : Token) (q : Queue) (capture : Option Capture) : Response :=
  match q with
  | [] => ⟨-1, [], capture⟩
  | t :: q => if tokenCmp desired t then ⟨1, q, capture⟩ else ⟨0, [], capture⟩

/-- One round of the loop of `imap4_out_response`. An untagged line before a tagged one is relayed to
the client where there is one, and the loop continues. -/
def imap4OutResponseRound (relay : Bool) (tag : Option Token) (desired : Token)
    (capture : Option Capture) : Exchange (Option Capture ⊕ Response) := do
  match ← (readLineInto capture tokenImap4 0).with .server with
  | none => return .inr ⟨-1, [], capture⟩
  | some (q, capture) => match q, tag with
    | [], _ => return .inr ⟨-1, [], capture⟩
    | t :: q, some tag =>
      if isUntagged t then
        if relay then
          if (← (imap4OutWriteQueue t q).with .client) < 0 then
            return .inr ⟨-1, [], capture⟩
          else return .inl capture
        else return .inl capture
      else if !tokenCmp tag t then return .inr ⟨-1, [], capture⟩
      else return .inr (imap4OutCheck desired q capture)
    | t :: q, none =>
      if !isUntagged t then return .inr ⟨-1, [], capture⟩
      else return .inr (imap4OutCheck desired q capture)

/-- `imap4_out_response`. -/
def imap4OutResponse (relay : Bool) (tag : Option Token) (desired : Token)
    (capture : Option Capture) : Exchange Response :=
  .loop (imap4OutResponseRound relay tag desired) capture

/-- The buffer for the next response: what it holds, and its size again. -/
def Capture.again (first now : Option Capture) : Option Capture :=
  match now, first with
  | some c, some first => some { c with n := first.n }
  | c, _ => c

/-- The first word of the captured string is dropped: `strchr` and `memmove` on a buffer that has
no NUL read beyond it. -/
def dropTag (buf : List Byte) : Option (List Byte) :=
  let text := (cstr buf).content
  match text.idxOf? space with
  | some place =>
    if text.length = buf.length then none
    else
      let moved := text.drop (place + 1) ++ [0]
      some (moved ++ buf.drop moved.length)
  | none => if text.length = buf.length then none else some buf

/-- `dropTag` where there is a buffer. -/
def Capture.dropTag (capture : Option Capture) : Exchange (Option Capture) :=
  match capture with
  | none => return none
  | some c => match Perdition.dropTag c.buf with
    | none => Exchange.fault .capture
    | some buf => return some { c with buf := buf }

/-- The tokens of a capability line up to its end contain the capability. -/
def findCapability (capability : Token) : Queue → Bool
  | [] => false
  | t :: q => tokenCmp t capability || (!t.isEol && findCapability capability q)

/-- The answer to the CAPABILITY command. Where the tagged line cannot be read, the status of the
untagged line before it is returned. -/
def imap4OutReadCapability (relay : Bool) (ok : Token) (tag : Token) (capture : Option Capture)
    (str : CString) : Exchange (Int × Token × Option Capture) := do
  let untagged ← imap4OutResponse relay none (litToken "CAPABILITY" tokenNone) capture
  if untagged.status < 1 then return (untagged.status, tag, untagged.capture)
  else
    let found := findCapability ⟨str.content, tokenDontCare⟩ untagged.q
    let tagged ← imap4OutResponse relay (some tag) ok (Capture.again capture untagged.capture)
    if tagged.status < 0 then return (untagged.status, tag, tagged.capture)
    else return (if found then 1 else 0, imap4TagInc tag, tagged.capture)

/-- `imap4_out_get_capability`: the status, the tag and the buffer. -/
def imap4OutGetCapability (relay : Bool) (ok : Token) (tag : Token) (capture : Option Capture)
    (str : CString) : Exchange (Int × Token × Option Capture) := do
  let cleared := capture.map fun c =>
    { c with buf := List.replicate c.n 0 ++ c.buf.drop c.n }
  let written ← (imap4WriteStr nullFlag (some tag) (some (lit "CAPABILITY")) none).with .server
  let (status, tag, after) ← if written < 0 then pure ((-1 : Int), tag, cleared)
    else imap4OutReadCapability relay ok tag cleared str
  return (status, tag, ← Capture.dropTag after)

/-! ## Setting up -/

/-- The token for `IMAP4_OK`. -/
def imap4OkToken : Token := litToken "OK" tokenDontCare

/-- The STARTTLS exchange of `imap4_out_setup`. The value of comparing the greetings is returned
where the CAPABILITY or the STARTTLS command fails. A refusal of STARTTLS is ignored. -/
def imap4OutStarttls (opt : Options) (tag : Token) (compared : Int) :
    Exchange (Int × Token) := do
  let buffer : Capture := ⟨List.replicate maxLineLength 0, maxLineLength⟩
  let (capability, tag, after) ← imap4OutGetCapability true imap4OkToken tag (some buffer)
    (lit "STARTTLS")
  if capability < 0 then return (compared, tag)
  else if capability = 0 then
    if opt.sslMode.has sslModeTlsOutgoingForce then return (0, tag)
    else return (protocolSOk, tag)
  else if (← (imap4WriteStr nullFlag (some tag) (some (lit "STARTTLS")) none).with .server) < 0
    then return (compared, tag)
  else
    let response ← imap4OutResponse true (some tag) imap4OkToken after
    if response.status < 0 then return (response.status, tag)
    else return ((protocolSOk ||| protocolSStarttls : Nat), imap4TagInc tag)

/-- `imap4_out_setup`: the status and the tag. -/
def imap4OutSetup (opt : Options) (platform : Platform) (tag : Token) :
    Exchange (Int × Token) := do
  let response ← imap4OutResponse true none imap4OkToken none
  if response.status < 1 then return (response.status, tag)
  else match queueToString response.q with
    | none => Exchange.fault .queueToString
    | some readString => match imap4GreetingStr opt platform with
      | none => Exchange.fault .substring
      | some none => return (response.status, tag)
      | some (some greeting) =>
        let compared := platform.strcmp readString greeting
        if compared = 0 then return (0, tag)
        else if !opt.sslMode.has sslModeTlsOutgoing then return (protocolSOk, tag)
        else imap4OutStarttls opt tag compared

/-! ## Authenticating -/

/-- What `out_authenticate` returns: its status, the tag and the buffer. -/
structure OutAuth where
  /-- 1 for success, 0 for failure, 2 and 3 where a login is not possible, -1 for an error. -/
  status : Int
  /-- The next tag. -/
  tag : Token
  /-- The buffer with the response. -/
  capture : Option Capture
  deriving DecidableEq

/-- The token for `IMAP4_CONT_TAG`. -/
def imap4ContToken : Token := litToken "+" tokenDontCare

/-- The LOGIN command of `imap4_out_authenticate`. The answers to the first two lines are read but
not looked at. -/
def imap4OutLogin (tag : Token) (user passwd : CString) (first now : Option Capture) :
    Exchange (Int × Option Capture) := do
  if (← (imap4Write nullFlag (some tag) (some (lit "LOGIN")) 1 (some (lit "\x7b%d\x7d"))
      [.nat user.length]).with .server) < 0 then return (-1, now)
  else
    let r ← imap4OutResponse true (some imap4ContToken) imap4OkToken (Capture.again first now)
    if (← (imap4Write nullFlag none none 2 (some (lit "%s \x7b%d\x7d"))
        [.str user, .nat passwd.length]).with .server) < 0 then return (-1, r.capture)
    else
      let r ← imap4OutResponse true (some imap4ContToken) imap4OkToken
        (Capture.again first r.capture)
      if (← (imap4WriteStr nullFlag none none (some passwd)).with .server) < 0 then
        return (-1, r.capture)
      else
        let r ← imap4OutResponse true (some tag) imap4OkToken (Capture.again first r.capture)
        return (r.status, r.capture)

/-- `imap4_out_authenticate`. -/
def imap4OutAuthenticate (auth : Auth) (tag : Token) (capture : Option Capture) :
    Exchange OutAuth := do
  let (capability, tag, now) ← imap4OutGetCapability true imap4OkToken tag capture
    (lit "LOGINDISABLED")
  let (status, now) ←
    if capability < 0 then pure ((-1 : Int), now)
    else if capability ≠ 0 then pure (2, now)
    else match auth.authenticationId, auth.passwd with
      | some user, some passwd => imap4OutLogin tag user passwd capture now
      | _, _ => Exchange.fault .nullPointer
  return ⟨status, imap4TagInc tag, ← Capture.dropTag now⟩

end Perdition
