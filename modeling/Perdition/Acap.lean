import Perdition.Options
import Perdition.Queue
import Perdition.Write

/-!
# ACAP strings

`acap.c`, `acap_token.c` and the ManageSieve writer. A character is compared as an `int`, so where
`char` is signed a byte from 0x80 on is negative.
-/
namespace Perdition

/-- `PERDITION_CLIENT`. -/
def perditionClient : Flag := 1

/-- `PERDITION_SERVER`. -/
def perditionServer : Flag := 2

/-! ## Sending -/

/-- `struct acap`: the string or its header, and the body of a literal. -/
structure Acap where
  /-- `a`. -/
  a : CString
  /-- `b`. -/
  b : Option CString
  deriving DecidableEq

/-- `acap_from_str`. -/
def acapFromStr (str : CString) (flag : Flag) : Acap :=
  if !str.content.contains cr && !str.content.contains lf then
    ⟨lit "\"" ++ str ++ lit "\"", none⟩
  else
    let extra := if flag.has perditionClient then bytes "+" else []
    ⟨cstr (bytes "\x7b" ++ decimal str.length ++ extra ++ bytes "\x7d"), some str⟩

/-- `managesieve_write_raw`. -/
def managesieveWriteRaw (message : CString) : Dialogue Int := do
  if (← strWrite 0 1 (lit "%s") [.str message]) < 0 then return -1 else return 0

/-- `managesieve_write_list`: the strings that are not null, with spaces between them. -/
def managesieveWriteList (strings : List (Option CString)) : Dialogue Int :=
  match strings.filterMap id with
  | [] => return -1
  | first :: rest => do
    if (← managesieveWriteRaw (rest.foldl (fun out str => out ++ lit " " ++ str) first)) < 0 then
      return -1
    else return 0

/-- `struct managesieve_response_code`. -/
structure ManagesieveResponseCode where
  /-- `atom`. -/
  atom : CString
  /-- `arg`, up to its null pointer. -/
  arg : List CString

/-- The loop of `managesieve_response_str`: the strings finished and the one being built. -/
def managesieveResponseArgs (flag : Flag) :
    List CString → CString → List CString × CString
  | [], current => ([], current)
  | arg :: rest, current =>
    let acap := acapFromStr arg flag
    let current := current ++ lit " " ++ acap.a
    match acap.b with
    | none => managesieveResponseArgs flag rest current
    | some body =>
      let (finished, last) := managesieveResponseArgs flag rest body
      (current :: finished, last)

/-- `managesieve_response_str`. -/
def managesieveResponseStr (rc : ManagesieveResponseCode) (flag : Flag) : List CString :=
  let (finished, last) := managesieveResponseArgs flag rc.arg (lit "(" ++ rc.atom)
  finished ++ [last ++ lit ")"]

/-- The loop of `managesieve_write` over the strings of a response code. -/
def managesieveWriteRc (message : Option CString) : Option CString → List CString → Dialogue Int
  | _, [] => return 0
  | cmd, str :: rest => do
    let tail := if rest.isEmpty then message else none
    if (← managesieveWriteList [cmd, some str, tail]) < 0 then return -1
    else managesieveWriteRc message none rest

/-- `managesieve_write`. The loop over a response code starts with its second string. -/
def managesieveWrite (flag : Flag) (command : CString) (rc : Option ManagesieveResponseCode)
    (message : Option CString) : Dialogue Int := do
  let acap := message.map fun message => acapFromStr message flag
  let status ← match rc with
    | none => managesieveWriteList [some command, acap.map (·.a)]
    | some rc =>
      managesieveWriteRc (acap.map (·.a)) (some command) ((managesieveResponseStr rc flag).drop 1)
  if status < 0 then return -1
  else match acap.bind (·.b) with
    | none => return 0
    | some body => if (← managesieveWriteRaw body) < 0 then return -1 else return 0

/-- `managesieve_write_str`. -/
def managesieveWriteStr (flag : Flag) (command str : Option CString) : Dialogue Int :=
  match command, str with
  | none, none => return -1
  | none, some str => strWrite writeStrNoCllf 1 (lit "%s") [.str str]
  | some command, str => managesieveWrite flag command none str

/-- `managesieve_ok`. -/
def managesieveOk (rc : Option ManagesieveResponseCode) (message : CString) : Dialogue Int :=
  managesieveWrite perditionServer (lit "OK") rc (some message)

/-- `managesieve_no`. -/
def managesieveNo (message : CString) : Dialogue Int :=
  managesieveWrite perditionServer (lit "NO") none (some message)

/-! ## Receiving -/

/-- `enum acap_type`. -/
inductive AcapType where
  /-- `acap_err`. -/
  | err
  /-- `acap_atom`. -/
  | atom
  /-- `acap_quoted`. -/
  | quoted
  /-- `acap_sychronising_literal`. -/
  | sychronisingLiteral
  /-- `acap_non_sychronising_literal`. -/
  | nonSychronisingLiteral
  deriving DecidableEq, Repr

/-- A character as an `int`. -/
def Platform.char (platform : Platform) (b : Byte) : Int :=
  if platform.charSigned ∧ 128 ≤ b.toNat then b.toNat - 256 else b.toNat

/-- `atom_char`. -/
def atomChar (c : Int) : Bool :=
  c = 0x21 || (0x23 ≤ c && c ≤ 0x27) || (0x2A ≤ c && c ≤ 0x5B) || (0x5D ≤ c && c ≤ 0x7A) ||
    (0x7C ≤ c && c ≤ 0x7E)

/-- `quoted_special`. -/
def quotedSpecial (c : Int) : Bool := c = 0x22 || c = 0x5C

/-- `utf8_1`. -/
def utf8_1 (c : Int) : Bool := 0x80 ≤ c && c ≤ 0xBF

/-- `utf8_2`. -/
def utf8_2 (c0 c1 : Int) : Bool := 0xC0 ≤ c0 && c0 ≤ 0xDF && utf8_1 c1

/-- `utf8_3`, which compares its second character where the first was meant. -/
def utf8_3 (c0 c1 c2 : Int) : Bool := 0xE0 ≤ c0 && c1 ≤ 0xEF && utf8_1 c1 && utf8_1 c2

/-- `utf8_4`, which compares its second character where the first was meant. -/
def utf8_4 (c0 c1 c2 c3 : Int) : Bool :=
  0xF0 ≤ c0 && c1 ≤ 0xF7 && utf8_1 c1 && utf8_1 c2 && utf8_1 c3

/-- `safe_char`. -/
def safeChar (c : Int) : Bool := c ≠ 0 && c ≤ 0x7f && !quotedSpecial c

/-- `safe_utf8_char`: the count of characters of a safe character at the start. -/
def safeUtf8Char (buf : List Int) : Nat :=
  match buf with
  | [] => 0
  | c0 :: rest =>
    if safeChar c0 then 1
    else match rest with
      | [] => 0
      | c1 :: rest =>
        if utf8_2 c0 c1 then 2
        else match rest with
          | [] => 0
          | c2 :: rest =>
            if utf8_3 c0 c1 c2 then 3
            else match rest with
              | [] => 0
              | c3 :: _ => if utf8_4 c0 c1 c2 c3 then 4 else 0

/-- `quoted_char`. -/
def quotedChar (buf : List Int) : Nat :=
  let j := safeUtf8Char buf
  if j ≠ 0 then j
  else match buf with
    | 92 :: c :: _ => if quotedSpecial c then 2 else 0
    | _ => 0

/-- The loop of `acap_strn_is_quoted`, which takes at least one character a round. -/
def quotedChars : Nat → List Int → Bool
  | 0, buf => buf.isEmpty
  | rounds + 1, buf =>
    if buf.isEmpty then true
    else
      let j := quotedChar buf
      if j = 0 then false else quotedChars rounds (buf.drop j)

/-- `acap_strn_is_atom`. -/
def acapStrnIsAtom (platform : Platform) (buf : List Byte) : Bool :=
  buf.length ≤ 1024 && buf.all fun b => atomChar (platform.char b)

/-- `acap_strn_is_quoted`. -/
def acapStrnIsQuoted (platform : Platform) (buf : List Byte) : Bool :=
  2 ≤ buf.length && buf.length ≤ 1024 && buf.head? = some dquote && buf.getLast? = some dquote &&
    quotedChars buf.length ((buf.drop 1).dropLast.map platform.char)

/-- `acap_token_status`: the type of a token and the length of its string. The number of a literal
is read by `strtoul`, which must stop at the brace or the plus sign. -/
def acapTokenStatus (platform : Platform) (t : Token) : AcapType × Nat :=
  if t.isNull then (.err, 0)
  else if t.buf.head? ≠ some 123 ∨ t.buf.getLast? ≠ some 125 then
    if acapStrnIsAtom platform t.buf then (.atom, t.len)
    else if acapStrnIsQuoted platform t.buf then (.quoted, t.len - 2)
    else (.err, 0)
  else if !t.isEol then (.err, 0)
  else if t.len < 3 then (.err, 0)
  else
    let inner := (t.buf.drop 1).dropLast
    let nonSynchronising := inner.getLast? = some 43
    if nonSynchronising ∧ t.len < 4 then (.err, 0)
    else
      let digits := if nonSynchronising then inner.dropLast else inner
      let value := strtoul (cstr digits)
      if value = ulongMax ∨ 4294967296 < value then (.err, 0)
      else if !strtoulTakesAll digits then (.err, 0)
      else (if nonSynchronising then .nonSychronisingLiteral else .sychronisingLiteral, value)

/-- `struct acap_token_wrapper_status`. -/
structure AcapTokenWrapperStatus where
  /-- 0, -1 for an invalid token, -2 for another error. -/
  status : Int
  /-- `type`. -/
  type : AcapType
  /-- `q`; null is the end of the line. -/
  q : Option Queue
  /-- `str`. -/
  str : Option CString
  deriving DecidableEq

/-- A queue, or null where it is empty. -/
def queueOrNull (q : Queue) : Option Queue := if q.isEmpty then none else some q

/-- `acap_token_wrapper_literal`. -/
def acapTokenWrapperLiteral (t : Token) (len : Nat) (type : AcapType) :
    Dialogue AcapTokenWrapperStatus :=
  if !t.isEol then return ⟨-1, type, none, none⟩
  else if len = 0 then return ⟨0, type, none, some .empty⟩
  else do
    match ← tokenRead none tokenImap4Literal len with
    | none => return ⟨-2, type, none, none⟩
    | some (t, _) =>
      match tokenToString t none with
      | none => fault .tokenToString
      | some str =>
        match ← readLine none tokenPop3 0 with
        | none => return ⟨-2, type, none, none⟩
        | some (q, _) => match q with
          | [] => return ⟨-2, type, none, none⟩
          | t :: q =>
            if t.len ≠ 0 then return ⟨-1, type, none, none⟩
            else return ⟨0, type, queueOrNull q, some str⟩

/-- `acap_token_wrapper`. -/
def acapTokenWrapper (platform : Platform) (q : Queue) : Dialogue AcapTokenWrapperStatus :=
  match q with
  | [] => return ⟨-2, .err, none, none⟩
  | t :: q => match acapTokenStatus platform t with
    | (.err, _) => return ⟨-1, .err, none, none⟩
    | (.atom, _) => return ⟨0, .atom, queueOrNull q, some (strnToStr t.buf t.len)⟩
    | (.quoted, _) => return ⟨0, .quoted, queueOrNull q, some (strnToStr (t.buf.drop 1)
        (t.len - 2))⟩
    | (type, len) => acapTokenWrapperLiteral t len type

end Perdition
