import Perdition.Token

/-!
# Writing messages

`str_vwrite` and the functions of `imap4_write.c` and `pop3_write.c` that build its format. The
untruncated length that `vsnprintf` returns is used as an offset and as a length, so a message that
does not fit is followed through its parts: what was placed, where the line end went and how many
bytes are sent.
-/
namespace Perdition

/-- `STR_WRITE_BUF_LEN`. -/
def strWriteBufLen : Nat := maxLineLength

/-- `WRITE_STR_NO_CLLF`. -/
def writeStrNoCllf : Flag := 0x1

/-- `NULL_FLAG`. -/
def nullFlag : Flag := 0

/-! ## Formats -/

/-- An argument of a format. -/
inductive Arg where
  /-- For `%s`. -/
  | str (text : CString)
  /-- For `%d`, of a number that is not negative. -/
  | nat (n : Nat)

/-- The text a format produces, for the conversions the program uses. -/
def vformat : List Byte → List Arg → Option (List Byte)
  | 37 :: 37 :: rest, args => (vformat rest args).map (percent :: ·)
  | 37 :: 115 :: rest, .str text :: args => (vformat rest args).map (text.content ++ ·)
  | 37 :: 100 :: rest, .nat n :: args => (vformat rest args).map (decimal n ++ ·)
  | 37 :: _, _ => none
  | b :: rest, args => (vformat rest args).map (b :: ·)
  | [], _ => some []

/-- The count of conversions in a format that `__str_vwrite` compares with `nargs`. -/
def fmtArgs : List Byte → Nat
  | 37 :: 37 :: rest => fmtArgs rest
  | 37 :: rest => fmtArgs rest + 1
  | _ :: rest => fmtArgs rest
  | [] => 0

/-! ## The write buffer -/

/-- What `__str_vwrite` leaves for its caller. -/
structure StrVwrite where
  /-- The bytes placed from the start of the buffer on, the terminating NUL among them. -/
  placed : List Byte
  /-- Where a carriage return and a line feed were placed after that. -/
  crlfAt : Option Nat
  /-- `*bytes`, the count of bytes the caller sends. -/
  count : Nat
  deriving DecidableEq

namespace StrVwrite

/-- A byte of the buffer has been placed by this call. -/
def Placed (w : StrVwrite) (i : Nat) : Prop :=
  i < w.placed.length ∨ ∃ at_, w.crlfAt = some at_ ∧ (i = at_ ∨ i = at_ + 1)

/-- No byte beyond the buffer is placed or sent. -/
def inside (w : StrVwrite) : Bool :=
  w.placed.length ≤ strWriteBufLen && w.count ≤ strWriteBufLen &&
    match w.crlfAt with
    | none => true
    | some at_ => at_ + 2 ≤ strWriteBufLen

end StrVwrite

/-- `__str_vwrite`: the text is what `vsnprintf` produces before truncation, or nothing when it
fails. The fast path returns the format itself, here a message of its own bytes. -/
def strVwriteBuf (flag : Flag) (nargs : Nat) (fmt : CString) (text : Option (List Byte)) :
    Option StrVwrite :=
  if nargs = 0 ∧ flag.has writeStrNoCllf then some ⟨fmt.content, none, fmt.length⟩
  else if fmtArgs fmt.content ≠ nargs then none
  else match text with
    | none => none
    | some text =>
      let placed := text.take (strWriteBufLen - 2 - 1) ++ [0]
      if flag.has writeStrNoCllf then some ⟨placed, none, text.length⟩
      else some ⟨placed, some text.length, text.length + 2⟩

/-- The fast path of `__str_vwrite`, which uses no buffer. -/
def strVwriteFast (flag : Flag) (nargs : Nat) : Bool := nargs = 0 && flag.has writeStrNoCllf

/-- `str_vwrite`: one write of the message. Bytes of the buffer that this call did not place are
those of an earlier message. -/
def strVwrite (flag : Flag) (nargs : Nat) (fmt : CString) (text : Option (List Byte)) :
    Dialogue Int :=
  match strVwriteBuf flag nargs fmt text with
  | none => return -1
  | some w =>
    if !strVwriteFast flag nargs && !w.inside then fault .strVwrite
    else
      let body := match w.crlfAt with
        | none => w.count
        | some at_ => at_
      let front := w.placed.take body
      let line := if w.crlfAt.isSome then crlf else []
      let sent (old : List Byte) : Dialogue Int := do
        if ← ioWrite (front ++ old ++ line) then return 0 else return -1
      if front.length < body then do sent (← staleBytes (body - front.length)) else sent []

/-- `str_write`. -/
def strWrite (flag : Flag) (nargs : Nat) (fmt : CString) (args : List Arg) : Dialogue Int :=
  strVwrite flag nargs fmt (vformat fmt.content args)

/-! ## IMAP -/

/-- `IMAP4_UNTAGGED`. -/
def imap4Untagged : List Byte := bytes "*"

/-- The bytes that `__imap4_write_fmt` assembles, before their NUL. -/
def imap4FmtLine (flag : Flag) (tag : Option Token) (command fmt : Option CString) : List Byte :=
  let tagStr := match tag with
    | none => imap4Untagged
    | some tag => tag.buf
  let commandPart := match command with
    | none => []
    | some command => space :: command.content
  let fmtPart := match fmt with
    | none => []
    | some fmt => if fmt.isEmpty then [] else space :: fmt.content
  tagStr ++ commandPart ++ fmtPart ++ if flag.has writeStrNoCllf then [] else crlf

/-- `__imap4_write_fmt`: the format that starts with the tag and the command, and the flag. A
format that leaves no room for its NUL in the buffer has no result. -/
def imap4WriteFmt (flag : Flag) (tag : Option Token) (command fmt : Option CString) :
    Option (Option CString × Flag) :=
  if tag.isNone && command.isNone then some (fmt, flag)
  else
    let line := imap4FmtLine flag tag command fmt
    if line.length < maxLineLength then some (some (cstr line), flag ||| writeStrNoCllf) else none

/-- `imap4_write`. -/
def imap4Write (flag : Flag) (tag : Option Token) (command : Option CString) (nargs : Nat)
    (fmt : Option CString) (args : List Arg) : Dialogue Int :=
  match imap4WriteFmt flag tag command fmt with
  | none => fault .imap4WriteFmt
  | some (none, _) => fault .nullPointer
  | some (some fmt, flag) => strWrite flag nargs fmt args

/-- `imap4_write_str`. -/
def imap4WriteStr (flag : Flag) (tag : Option Token) (command str : Option CString) :
    Dialogue Int :=
  match str with
  | some str => imap4Write flag tag command 1 (some (lit "%s")) [.str str]
  | none => imap4Write flag tag command 0 none []

/-! ## POP3 -/

/-- `__pop3_write_fmt`. The formats of the program all fit. -/
def pop3WriteFmt (flag : Flag) (command fmt : Option CString) : Option CString × Flag :=
  match command with
  | none => (fmt, flag)
  | some command =>
    let fmtPart := match fmt with
      | none => []
      | some fmt => if fmt.isEmpty then [] else space :: fmt.content
    let linePart := if flag.has writeStrNoCllf then [] else crlf
    (some (cstr (command.content ++ fmtPart ++ linePart)), flag ||| writeStrNoCllf)

/-- `pop3_write` and `pop3_vwrite`. -/
def pop3Write (flag : Flag) (command : Option CString) (nargs : Nat) (fmt : Option CString)
    (args : List Arg) : Dialogue Int :=
  match pop3WriteFmt flag command fmt with
  | (none, _) => fault .nullPointer
  | (some fmt, flag) => strWrite flag nargs fmt args

/-- `pop3_write_str`. -/
def pop3WriteStr (flag : Flag) (command str : Option CString) : Dialogue Int :=
  match str with
  | some str => pop3Write flag command 1 (some (lit "%s")) [.str str]
  | none => pop3Write flag command 0 none []

end Perdition
