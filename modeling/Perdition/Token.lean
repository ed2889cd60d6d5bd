import Perdition.Io

/-!
# Tokens

`token.c`: tokens, the tokeniser and the conversion of a token to a string. The tokeniser takes one
byte at a time from the connection; what it does with a byte is the pure `tokenStep`.
-/
namespace Perdition

/-- `token_t`: its bytes and its flag. -/
structure Token where
  /-- `buf`, `n` bytes long. -/
  buf : List Byte
  /-- `flag`. -/
  flag : Flag
  deriving DecidableEq

/-- `TOKEN_NONE`. -/
def tokenNone : Flag := 0x00

/-- `TOKEN_EOL`. -/
def tokenEol : Flag := 0x01

/-- `TOKEN_POP3`, also `TOKEN_ACAP_ATOM`. -/
def tokenPop3 : Flag := 0x02

/-- `TOKEN_IMAP4`, also `TOKEN_MANAGESIEVE`. -/
def tokenImap4 : Flag := 0x04

/-- `TOKEN_IMAP4_LITERAL`, also `TOKEN_ACAP_LITERAL`. -/
def tokenImap4Literal : Flag := 0x08

namespace Token

/-- `token_len`. -/
def len (t : Token) : Nat := t.buf.length

/-- `token_is_eol`. -/
def isEol (t : Token) : Bool := t.flag.has tokenEol

/-- `token_is_null`. -/
def isNull (t : Token) : Bool := t.buf.isEmpty

theorem isEol_none (buf : List Byte) : (Token.mk buf tokenNone).isEol = false :=
  show tokenNone.has tokenEol = false by decide

theorem isEol_eol (buf : List Byte) : (Token.mk buf tokenEol).isEol = true :=
  show tokenEol.has tokenEol = true by decide

end Token

/-! ## Reading -/

/-- The locals of `token_read`. -/
structure ReadState where
  /-- The first `len` bytes of `buffer`. -/
  buffer : List Byte
  /-- The first `literal_offset` bytes of `literal_buf`. -/
  literal : List Byte
  /-- `quoted`. -/
  quoted : Bool
  deriving DecidableEq

/-- The locals before the first byte. -/
def ReadState.start : ReadState := ⟨[], [], false⟩

/-- What one byte does: go on, or end the token with a flag. -/
inductive ReadStep where
  /-- The loop continues. -/
  | more (state : ReadState)
  /-- The loop is left. -/
  | stop (state : ReadState) (flag : Flag)
  deriving DecidableEq

/-- The body of the loop of `token_read` after the byte is taken. -/
def tokenStep (doLiteral : Bool) (flag : Flag) (m : Nat) (state : ReadState) (c : Byte) :
    ReadStep :=
  let state := if doLiteral then { state with literal := state.literal ++ [c] } else state
  let keep := { state with buffer := state.buffer ++ [c] }
  if flag.has tokenImap4Literal then
    if m ≤ keep.buffer.length then .stop keep tokenNone else .more keep
  else if c = lf then .stop state tokenEol
  else if c = cr then .more state
  else if c = dquote then
    .more (if flag.has tokenImap4 then { keep with quoted := !state.quoted } else keep)
  else if c = space ∧ !flag.has tokenEol ∧ !state.quoted then .stop state tokenNone
  else .more keep

/-- The loop ends before another byte is taken: `literal_buf`, where there is one, or `buffer` is
full. -/
def ReadState.full (capture : Option Nat) (state : ReadState) : Bool :=
  (match capture with
    | none => false
    | some n => n ≤ state.literal.length) || maxLineLength ≤ state.buffer.length

/-- One round of the loop of `token_read`: the token and the bytes captured with it, unless the read
failed. -/
def tokenReadRound (capture : Option Nat) (flag : Flag) (m : Nat) (state : ReadState) :
    Dialogue (ReadState ⊕ Option (Token × List Byte)) :=
  if state.full capture then
    return .inr (some (⟨state.buffer, tokenNone⟩, state.literal))
  else do
    match ← nextByte with
    | none => return .inr none
    | some c =>
      match tokenStep capture.isSome flag m state c with
      | .more state => return .inl state
      | .stop state flag => return .inr (some (⟨state.buffer, flag⟩, state.literal))

/-- `token_read`. The capture is the size of `literal_buf` where there is one and it is not empty.
The bytes placed in it are returned with the token. -/
def tokenRead (capture : Option Nat) (flag : Flag) (m : Nat) :
    Dialogue (Option (Token × List Byte)) :=
  .loop (tokenReadRound capture flag m) ReadState.start

/-! ## Comparing and converting -/

/-- `token_casecmp_string`. -/
def tokenCasecmpString (t : Token) (text : CString) : Bool :=
  t.len = text.length && strncaseEq t.buf text.content t.len

/-- `token_cmp`. -/
def tokenCmp (a b : Token) : Bool :=
  a.len = b.len && (a.flag = b.flag || a.flag = 0x03 || b.flag = 0x03) &&
    strncaseEq a.buf b.buf a.len

/-- `strn_to_str`: `strncpy` stops at a NUL. -/
def strnToStr (content : List Byte) (n : Nat) : CString := cstr (content.take n)

/-- `token_to_string`, stripping the character when it is both the first and the last. One
character that is both is stripped twice, which makes the count wrap; then there is no result. -/
def tokenToString (t : Token) (strip : Option Byte) : Option CString :=
  match t.buf, strip with
  | [], _ => some .empty
  | buf, none => some (strnToStr buf buf.length)
  | buf, some quote =>
    if buf.head? = some quote ∧ buf.getLast? = some quote then
      if buf.length < 2 then none else some (strnToStr (buf.drop 1) (buf.length - 2))
    else some (strnToStr buf buf.length)

/-- Without a character to strip the string is the bytes before the first NUL. -/
theorem tokenToString_noStrip (t : Token) : tokenToString t none = some (cstr t.buf) := by
  obtain ⟨buf, flag⟩ := t
  cases buf with
  | nil => rfl
  | cons b rest => simp [tokenToString, strnToStr]

end Perdition
