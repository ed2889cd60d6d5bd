import Perdition.Acap

/-!
# Tokens as strings

`token_to_string` for any character to strip. The bytes of the token are compared as `char`, the
character as `unsigned char`.
-/
namespace Perdition

/-- `TOKEN_NO_STRIP`. -/
def tokenNoStrip : Byte := 0

/-- The bytes of a token, without the first and the last where they are two and both the character. -/
def Token.stripped (t : Token) (strip : Byte) : List Byte :=
  if strip ≠ tokenNoStrip ∧ 2 ≤ t.len ∧ t.buf.head? = some strip ∧ t.buf.getLast? = some strip then
    (t.buf.drop 1).dropLast
  else t.buf

/-- `token_to_string`. A count less than two wraps when two is taken from it; then there is no
result. -/
def tokenToStringChar (platform : Platform) (t : Token) (strip : Byte) : Option CString :=
  match t.buf with
  | [] => some .empty
  | b :: rest =>
    if strip ≠ tokenNoStrip ∧ platform.char b = strip.toNat ∧
        platform.char (rest.getLastD b) = strip.toNat then
      if t.len < 2 then none else some (strnToStr rest (t.len - 2))
    else some (strnToStr t.buf t.len)

end Perdition
