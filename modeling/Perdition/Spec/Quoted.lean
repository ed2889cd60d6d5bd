import Perdition.Bytes

/-!
# The grammar of quoted strings

What may stand between the double quotes of an ACAP string: characters of seven bits but NUL, the
double quote and the backslash; UTF-8 sequences of two to four bytes; and a double quote or a
backslash after a backslash.
-/
namespace Perdition

/-- A text that is one character after another. -/
inductive Sequence (Char : List Byte → Prop) : List Byte → Prop where
  /-- No character. -/
  | nil : Sequence Char []
  /-- A character, then more. -/
  | cons {c rest : List Byte} (char : Char c) (more : Sequence Char rest) : Sequence Char (c ++ rest)

/-- `QUOTED-SPECIALS`. -/
def Special (b : Byte) : Prop := b = dquote ∨ b = backslash

instance (b : Byte) : Decidable (Special b) := inferInstanceAs (Decidable (_ ∨ _))

/-- A byte that continues a UTF-8 sequence. -/
def Tail (b : Byte) : Prop := 0x80 ≤ b ∧ b ≤ 0xBF

instance (b : Byte) : Decidable (Tail b) := inferInstanceAs (Decidable (_ ∧ _))

/-- `QUOTED-CHAR`. -/
inductive QuotedChar : List Byte → Prop where
  /-- A safe character. -/
  | safe {b : Byte} (nul : b ≠ 0) (seven : b ≤ 0x7F) (plain : ¬ Special b) : QuotedChar [b]
  /-- A sequence of two bytes. -/
  | two {a b : Byte} (low : 0xC0 ≤ a) (high : a ≤ 0xDF) (tail : Tail b) : QuotedChar [a, b]
  /-- A sequence of three bytes. -/
  | three {a b c : Byte} (low : 0xE0 ≤ a) (high : a ≤ 0xEF) (tail₁ : Tail b) (tail₂ : Tail c) :
    QuotedChar [a, b, c]
  /-- A sequence of four bytes. -/
  | four {a b c d : Byte} (low : 0xF0 ≤ a) (high : a ≤ 0xF7) (tail₁ : Tail b) (tail₂ : Tail c)
    (tail₃ : Tail d) : QuotedChar [a, b, c, d]
  /-- An escaped character. -/
  | escaped {b : Byte} (special : Special b) : QuotedChar [backslash, b]

/-- A quoted string: at most 1024 bytes between double quotes. -/
def Quoted (buf : List Byte) : Prop :=
  ∃ content, buf = dquote :: (content ++ [dquote]) ∧ Sequence QuotedChar content ∧
    content.length ≤ 1024

/-- A character of a string whose bytes from 0x80 on stand each for itself. -/
inductive LooseChar : List Byte → Prop where
  /-- Neither NUL nor a special character. -/
  | plain {b : Byte} (nul : b ≠ 0) (plain : ¬ Special b) : LooseChar [b]
  /-- An escaped character. -/
  | escaped {b : Byte} (special : Special b) : LooseChar [backslash, b]

/-- What stands between the quotes is recognised rightly whether `char` is signed or not: where it is
a sequence of `QUOTED-CHAR`s, because it fits with its quotes and has no sequence of four bytes, or is
too long in any case; and where it is none, because that shows in seven bits or it is too long. -/
structure Classified (content : List Byte) : Prop where
  /-- It is a sequence of `QUOTED-CHAR`s. -/
  quoted : Sequence QuotedChar content →
    (content.length ≤ 1022 ∧ ∀ b ∈ content, b < 0xF0) ∨ 1024 < content.length
  /-- It is none. -/
  other : ¬ Sequence QuotedChar content → Sequence LooseChar content → 1022 < content.length

/-- Every space comes after an even count of double quotes. -/
def SpacesQuoted (text : List Byte) : Prop :=
  ∀ front back, text = front ++ space :: back → front.count dquote % 2 = 0

end Perdition
