import Perdition.Bytes

/-!
# The grammar of tags

The tags of IMAP commands: one or more characters of seven bits, without the control characters and
the specials of an atom but the closing bracket, and without the plus sign.
-/
namespace Perdition

/-- `CTL`. -/
def Ctl (b : Byte) : Prop := b ≤ 0x1F ∨ b = 0x7F

/-- `list-wildcards`. -/
def ListWildcard (b : Byte) : Prop := b = percent ∨ b = 42

/-- `quoted-specials`. -/
def QuotedSpecial (b : Byte) : Prop := b = dquote ∨ b = backslash

/-- `resp-specials`. -/
def RespSpecial (b : Byte) : Prop := b = 93

/-- `atom-specials`: parentheses, the opening brace and the space among them. -/
def AtomSpecial (b : Byte) : Prop :=
  b = 40 ∨ b = 41 ∨ b = 123 ∨ b = space ∨ Ctl b ∨ ListWildcard b ∨ QuotedSpecial b ∨ RespSpecial b

/-- `ATOM-CHAR`. -/
def AtomChar (b : Byte) : Prop := 1 ≤ b ∧ b ≤ 0x7F ∧ ¬ AtomSpecial b

/-- `ASTRING-CHAR`. -/
def AstringChar (b : Byte) : Prop := AtomChar b ∨ RespSpecial b

instance (b : Byte) : Decidable (Ctl b) := inferInstanceAs (Decidable (_ ∨ _))

instance (b : Byte) : Decidable (ListWildcard b) := inferInstanceAs (Decidable (_ ∨ _))

instance (b : Byte) : Decidable (QuotedSpecial b) := inferInstanceAs (Decidable (_ ∨ _))

instance (b : Byte) : Decidable (RespSpecial b) := inferInstanceAs (Decidable (b = 93))

instance (b : Byte) : Decidable (AtomSpecial b) := inferInstanceAs (Decidable (_ ∨ _))

instance (b : Byte) : Decidable (AtomChar b) := inferInstanceAs (Decidable (_ ∧ _))

instance (b : Byte) : Decidable (AstringChar b) := inferInstanceAs (Decidable (_ ∨ _))

/-- `tag`. -/
def IsTag (word : List Byte) : Prop := word ≠ [] ∧ ∀ b ∈ word, AstringChar b ∧ b ≠ 43

instance (word : List Byte) : Decidable (IsTag word) := inferInstanceAs (Decidable (_ ∧ _))

end Perdition
