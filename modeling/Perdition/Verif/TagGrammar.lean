import Perdition.Acap
import Perdition.Imap4In
import Perdition.Spec.Tags
import Perdition.Verif.Writers

/-!
# Tags of clients

`imap4_in_verify_tag_str` refuses the closing bracket, which a tag may hold, and accepts the plus sign,
which none may. What it accepts stands for itself in a format.
-/
namespace Perdition

/-! ## The test -/

/-- A character that `imap4_in_verify_tag_str` refuses, as an `int`. -/
def imap4TagRefusesChar (c : Int) : Bool :=
  c ≤ 0x1f || c ≥ 0x7f || [0, 40, 41, 123, 32, 37, 42, 34, 92, 93].contains c

/-- `imap4_in_verify_tag_str` where a `char` is signed or not. -/
def imap4InVerifyTagChars (platform : Platform) (tag : Token) : Bool :=
  tag.len ≠ 0 && tag.buf.all fun b => !imap4TagRefusesChar (platform.char b)

/-- The signedness of `char` makes no difference. -/
theorem imap4TagRefuses_char (platform : Platform) (b : Byte) :
    imap4TagRefusesChar (platform.char b) = imap4TagRefuses b := by
  have each (signed : Bool) : ∀ b : Byte, imap4TagRefusesChar
      (if signed = true ∧ 128 ≤ b.toNat then (b.toNat : Int) - 256 else b.toNat) =
        imap4TagRefuses b := by
    apply byte_of_nat
    cases signed <;> decide +kernel
  exact each platform.charSigned b

theorem imap4InVerifyTagChars_eq (platform : Platform) (tag : Token) :
    imap4InVerifyTagChars platform tag = imap4InVerifyTagStr tag := by
  simp only [imap4InVerifyTagChars, imap4InVerifyTagStr, imap4TagRefuses_char]

/-! ## What is accepted -/

/-- The characters that are not refused are those of an atom. -/
theorem imap4TagRefuses_atom (b : Byte) : imap4TagRefuses b = false ↔ AtomChar b := by
  revert b
  exact byte_of_nat (by decide +kernel)

/-- A character of an atom is printable and no percent sign. -/
theorem AtomChar.plain {b : Byte} (atom : AtomChar b) : b ≠ percent ∧ ¬ Ctl b ∧ b ≤ 0x7E := by
  have each : ∀ b : Byte, AtomChar b → b ≠ percent ∧ ¬ Ctl b ∧ b ≤ 0x7E :=
    byte_of_nat (by decide +kernel)
  exact each b atom

theorem imap4InVerifyTagChars_iff (platform : Platform) (tag : Token) :
    imap4InVerifyTagChars platform tag = true ↔ tag.buf ≠ [] ∧ ∀ b ∈ tag.buf, AtomChar b := by
  rw [imap4InVerifyTagChars_eq, imap4InVerifyTagStr, Bool.and_eq_true, List.all_eq_true]
  simp [Token.len, imap4TagRefuses_atom]

/-- What is made of a word that a client sends where its tag is expected. -/
structure TagChecked (platform : Platform) (tag : Token) : Prop where
  /-- It is accepted where it is a tag. -/
  grammar : imap4InVerifyTagChars platform tag = true ↔ IsTag tag.buf
  /-- What is accepted is printable and has no percent sign. -/
  plain : imap4InVerifyTagChars platform tag = true →
    ∀ b ∈ tag.buf, b ≠ percent ∧ ¬ Ctl b ∧ b ≤ 0x7E
  /-- What is accepted stands for itself in the format that begins with it. -/
  literal : imap4InVerifyTagChars platform tag = true → ∀ flag command fmt,
    ∃ rest, (∀ other, imap4FmtLine flag (some other) command fmt = other.buf ++ rest) ∧
      fmtArgs (imap4FmtLine flag (some tag) command fmt) = fmtArgs rest ∧
      ∀ args, vformat (imap4FmtLine flag (some tag) command fmt) args =
        (vformat rest args).map (tag.buf ++ ·)

/-- The word has neither a closing bracket nor a plus sign, or both, or another character that no tag
has. -/
def TagSettled (word : List Byte) : Prop :=
  (93 ∉ word ∧ 43 ∉ word) ∨ (93 ∈ word ∧ 43 ∈ word) ∨ ∃ b ∈ word, ¬ AstringChar b

/-- An accepted tag stands for itself in a format. -/
theorem verified_literal {platform : Platform} {tag : Token}
    (accepted : imap4InVerifyTagChars platform tag = true) (flag : Flag)
    (command fmt : Option CString) :
    ∃ rest, (∀ other, imap4FmtLine flag (some other) command fmt = other.buf ++ rest) ∧
      fmtArgs (imap4FmtLine flag (some tag) command fmt) = fmtArgs rest ∧
      ∀ args, vformat (imap4FmtLine flag (some tag) command fmt) args =
        (vformat rest args).map (tag.buf ++ ·) := by
  have ⟨_, atoms⟩ := (imap4InVerifyTagChars_iff platform tag).mp accepted
  have plain : Plain tag.buf := fun same => (atoms _ same).plain.1 rfl
  have behind (other : Token) : imap4FmtLine flag (some other) command fmt =
      other.buf ++ imap4FmtLine flag (some ⟨[], tokenNone⟩) command fmt := by
    simp [imap4FmtLine]
  refine ⟨_, behind, ?_, fun args => ?_⟩
  · rw [behind, fmtArgs_plain_append plain]
  · rw [behind, vformat_plain_append plain]

/-- `imap4_in_verify_tag_str` accepts the tags of the grammar where a word has neither a closing bracket
nor a plus sign, or is no tag for another reason; what it accepts stands for itself in any case. -/
theorem imap4InVerifyTagChars_grammar_iff (platform : Platform) (tag : Token) :
    TagChecked platform tag ↔ TagSettled tag.buf := by
  have accepted := imap4InVerifyTagChars_iff platform tag
  constructor
  · intro checked
    have grammar := checked.grammar
    by_cases strange : ∃ b ∈ tag.buf, ¬ AstringChar b
    · exact .inr (.inr strange)
    have chars : ∀ b ∈ tag.buf, AstringChar b := by
      intro b member
      by_contra other
      exact strange ⟨b, member, other⟩
    by_cases bracket : 93 ∈ tag.buf
    · refine .inr (.inl ⟨bracket, ?_⟩)
      by_contra noPlus
      -- the word is a tag and is refused
      have refused := (accepted.mp (grammar.mpr ⟨List.ne_nil_of_mem bracket, fun b member =>
        ⟨chars b member, fun plus => noPlus (plus ▸ member)⟩⟩)).2 93 bracket
      exact absurd refused (by decide)
    · refine .inl ⟨bracket, fun plus => ?_⟩
      -- the word is no tag and is accepted
      have atoms : ∀ b ∈ tag.buf, AtomChar b := fun b member =>
        (chars b member).resolve_right fun same => bracket (same ▸ member)
      exact ((grammar.mp (accepted.mpr ⟨List.ne_nil_of_mem plus, atoms⟩)).2 43 plus).2 rfl
  · intro settled
    refine ⟨?grammar, fun verified b member => ((accepted.mp verified).2 b member).plain,
      verified_literal⟩
    rw [accepted]
    constructor
    · rintro ⟨some_, atoms⟩
      refine ⟨some_, fun b member => ⟨.inl (atoms b member), ?_⟩⟩
      rcases settled with plain | both | ⟨c, inside, strange⟩
      · exact fun plus => plain.2 (plus ▸ member)
      · exact absurd (atoms 93 both.1) (by decide)
      · exact absurd (.inl (atoms c inside)) strange
    · rintro ⟨some_, chars⟩
      refine ⟨some_, fun b member => (chars b member).1.resolve_right fun bracket => ?_⟩
      rcases settled with plain | both | ⟨c, inside, strange⟩
      · exact plain.1 (bracket ▸ member)
      · exact (chars 43 both.2).2 rfl
      · exact strange (chars c inside).1

/-- The tag `a]` is refused, and `+` is accepted. -/
theorem imap4InVerifyTagChars_bracket :
    ¬ TagChecked Platform.sample ⟨bytes "a]", tokenNone⟩ ∧
      ¬ TagChecked Platform.sample ⟨bytes "+", tokenNone⟩ := by
  constructor
  · intro checked
    exact absurd (checked.grammar.mpr (by decide +kernel)) (by decide +kernel)
  · intro checked
    exact absurd (checked.grammar.mp (by decide +kernel)) (by decide +kernel)

end Perdition
