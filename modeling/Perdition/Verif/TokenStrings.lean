import Perdition.TokenString
import Perdition.Verif.Lines
import Perdition.Verif.Setup

/-!
# The strings of tokens

When `token_to_string` returns the bytes of the token, stripped where they are enclosed.
-/
namespace Perdition

/-- A byte and a character to strip are equal as numbers, unless a signed `char` makes the byte
negative. -/
theorem char_eq_strip (platform : Platform) (b strip : Byte) :
    platform.char b = strip.toNat ↔ b = strip ∧ ¬ (platform.charSigned = true ∧ 0x80 ≤ strip) := by
  have high : (0x80 ≤ strip) ↔ 128 ≤ strip.toNat := UInt8.le_iff_toNat_le
  have small := b.toNat_lt
  rw [Platform.char, high, ← UInt8.toNat_inj]
  split
  · rename_i negative
    constructor
    · intro same
      omega
    · intro ⟨same, low⟩
      exact absurd ⟨negative.1, same ▸ negative.2⟩ low
  · rename_i plain
    constructor
    · intro same
      have same : b.toNat = strip.toNat := by omega
      exact ⟨same, same ▸ plain⟩
    · intro ⟨same, _⟩
      rw [same]

/-- The strip character is one that is never found where `char` is signed. -/
def Unfound (platform : Platform) (strip : Byte) : Prop :=
  platform.charSigned = true ∧ 0x80 ≤ strip

instance (platform : Platform) (strip : Byte) : Decidable (Unfound platform strip) :=
  inferInstanceAs (Decidable (_ ∧ _))

/-- What is stripped, in the words of the code. -/
theorem tokenToStringChar_eq (platform : Platform) (t : Token) (strip : Byte) :
    tokenToStringChar platform t strip =
      if strip ≠ tokenNoStrip ∧ t.buf.head? = some strip ∧ t.buf.getLast? = some strip ∧
          ¬ Unfound platform strip then
        if t.len < 2 then none else some (cstr ((t.buf.drop 1).dropLast))
      else some (cstr t.buf) := by
  have ⟨buf, flag⟩ := t
  cases buf with
  | nil => simp [tokenToStringChar, CString.ext_iff, cstr]
  | cons b rest =>
    have last : (b :: rest).getLast? = some (rest.getLastD b) := by
      rw [List.getLast?_cons, List.getLastD_eq_getLast?]
    have string : strnToStr rest ((Token.mk (b :: rest) flag).len - 2) = cstr rest.dropLast := by
      rw [List.dropLast_eq_take]
      rfl
    have whole : strnToStr (b :: rest) (Token.mk (b :: rest) flag).len = cstr (b :: rest) := by
      rw [strnToStr, Token.len, List.take_length]
    have conditions : (strip ≠ tokenNoStrip ∧ platform.char b = strip.toNat ∧
        platform.char (rest.getLastD b) = strip.toNat) ↔ strip ≠ tokenNoStrip ∧
          (b :: rest).head? = some strip ∧ (b :: rest).getLast? = some strip ∧
          ¬ Unfound platform strip := by
      rw [char_eq_strip, char_eq_strip, last, Unfound]
      simp only [List.head?_cons, Option.some.injEq]
      tauto
    unfold tokenToStringChar
    dsimp only
    rw [string, whole]
    simp only [conditions]
    rfl

/-- The string of a token is its bytes, stripped where they are enclosed, exactly where those have no
NUL, the token is not the strip character alone, and a character that is never found does not enclose
it. -/
def StringExact (platform : Platform) (t : Token) (strip : Byte) : Prop :=
  0 ∉ t.stripped strip ∧
    if Unfound platform strip then t.stripped strip = t.buf else t.buf ≠ [strip]

/-- Bytes are a string exactly where they have no NUL. -/
theorem cstr_content_iff (content : List Byte) : (cstr content).content = content ↔ 0 ∉ content :=
  ⟨fun same => same ▸ (cstr content).noNul, cstr_content⟩

/-- What is stripped has the character at both ends. -/
theorem stripped_enclosed {t : Token} {strip : Byte} (two : 2 ≤ t.len)
    (head : t.buf.head? = some strip) (last : t.buf.getLast? = some strip) :
    t.buf = strip :: ((t.buf.drop 1).dropLast ++ [strip]) := by
  obtain ⟨buf, flag⟩ := t
  cases buf with
  | nil => cases head
  | cons b rest =>
    have filled : rest ≠ [] := fun none_ => by simp [Token.len, none_] at two
    change (b :: rest).getLast? = _ at last
    rw [List.getLast?_cons_of_ne_nil filled] at last
    obtain ⟨front, whole⟩ := List.getLast?_eq_some_iff.mp last
    simp only [Option.some.inj head, whole, List.drop_one, List.tail_cons, List.dropLast_concat]

/-- `token_to_string` returns the bytes it should exactly there. -/
theorem tokenToStringChar_iff (platform : Platform) (t : Token) (strip : Byte) :
    (∃ string, tokenToStringChar platform t strip = some string ∧
      string.content = t.stripped strip) ↔ StringExact platform t strip := by
  have exact (content : List Byte) : (∃ string, some (cstr content) = some string ∧
      string.content = t.stripped strip) ↔ (cstr content).content = t.stripped strip := by
    constructor
    · rintro ⟨_, same, right⟩
      exact Option.some.inj same ▸ right
    · exact fun right => ⟨_, rfl, right⟩
  rw [tokenToStringChar_eq, StringExact]
  by_cases found : strip ≠ tokenNoStrip ∧ t.buf.head? = some strip ∧ t.buf.getLast? = some strip
  · obtain ⟨some_, head, last⟩ := found
    by_cases two : 2 ≤ t.len
    · have stripped : t.stripped strip = (t.buf.drop 1).dropLast := if_pos ⟨some_, two, head, last⟩
      have whole := stripped_enclosed two head last
      have long : t.buf ≠ [strip] := by
        intro one
        rw [Token.len, one] at two
        exact absurd two (by simp)
      by_cases unfound : Unfound platform strip
      · have nul : 0 ∉ t.stripped strip → 0 ∉ t.buf := fun noNul => by
          rw [whole, ← stripped]
          simp [noNul, show (0 : Byte) ≠ strip from Ne.symm some_]
        rw [if_neg (fun all => all.2.2.2 unfound), if_pos unfound, exact]
        constructor
        · intro same
          have noNul : 0 ∉ t.stripped strip := same ▸ (cstr t.buf).noNul
          rw [cstr_content (nul noNul)] at same
          exact ⟨noNul, same.symm⟩
        · rintro ⟨noNul, same⟩
          rw [same]
          exact cstr_content (nul noNul)
      · rw [if_pos ⟨some_, head, last, unfound⟩, if_neg (by omega), if_neg unfound, exact, stripped,
          cstr_content_iff]
        exact ⟨fun noNul => ⟨noNul, long⟩, fun both => both.1⟩
    · have one : t.buf = [strip] := by
        obtain ⟨buf, flag⟩ := t
        rcases buf with _ | ⟨b, _ | ⟨c, rest⟩⟩
        · cases head
        · exact congrArg (fun b => [b]) (Option.some.inj head)
        · exact absurd (by simp [Token.len]) two
      have stripped : t.stripped strip = t.buf := if_neg fun all => two all.2.1
      by_cases unfound : Unfound platform strip
      · rw [if_neg (fun all => all.2.2.2 unfound), if_pos unfound, exact, stripped, cstr_content_iff]
        exact ⟨fun noNul => ⟨noNul, rfl⟩, fun both => both.1⟩
      · rw [if_pos ⟨some_, head, last, unfound⟩, if_pos (by omega), if_neg unfound]
        exact iff_of_false (by simp) fun both => both.2 one
  · have stripped : t.stripped strip = t.buf :=
      if_neg fun all => found ⟨all.1, all.2.2.1, all.2.2.2⟩
    rw [if_neg (fun all => found ⟨all.1, all.2.1, all.2.2.1⟩), exact, stripped, cstr_content_iff]
    refine ⟨fun noNul => ⟨noNul, ?_⟩, fun both => both.1⟩
    split
    · rfl
    · intro one
      refine found ⟨?_, by rw [one]; rfl, by rw [one]; rfl⟩
      intro nul
      rw [one, nul] at noNul
      exact noNul (List.mem_singleton.mpr rfl)

/-- A character of seven bits is stripped alike whether `char` is signed or not. -/
theorem tokenToStringChar_low (platform : Platform) (t : Token) {strip : Byte}
    (some_ : strip ≠ tokenNoStrip) (low : strip < 0x80) :
    tokenToStringChar platform t strip = tokenToString t (some strip) := by
  have found : ¬ Unfound platform strip := fun unfound => absurd unfound.2 (UInt8.not_le.mpr low)
  have ⟨buf, flag⟩ := t
  rw [tokenToStringChar_eq]
  cases buf with
  | nil => simp [tokenToString, CString.ext_iff, cstr]
  | cons b rest => simp [tokenToString, strnToStr, Token.len, found, some_, List.dropLast_eq_take]

/-- An IMAP client that sends a lone double quote as the last word of `LOGIN`. -/
def loneQuote : List Byte := bytes "a LOGIN u \"\r\n"

/-- The lone quote is a token of its own, for which there is no string, and `imap4_in_get_auth`
computes a length that wraps. -/
theorem tokenToStringChar_lone :
    (∃ q, scanLine tokenImap4 0 loneQuote = some (q, []) ∧ ⟨[dquote], tokenEol⟩ ∈ q) ∧
    (∀ platform, ¬ ∃ string, tokenToStringChar platform ⟨[dquote], tokenEol⟩ dquote = some string ∧
      string.content = Token.stripped ⟨[dquote], tokenEol⟩ dquote) ∧
    ∃ ch, (imap4InGetAuth Options.sample Platform.sample 0 0).run Channel.step 20
      (Channel.reading [loneQuote]) = .halted .tokenToString ch := by
  refine ⟨⟨_, scanLine_line lineFlag_imap4 0 [] (show lf ∉ bytes "a LOGIN u \"\r" by decide), ?_⟩,
    fun platform right => ?_, ?_⟩
  · decide
  · rw [tokenToStringChar_low platform _ (by decide) (by decide)] at right
    have ⟨string, none_, _⟩ := right
    nomatch none_
  · have halted : (match (imap4InGetAuth Options.sample Platform.sample 0 0).run Channel.step 20
        (Channel.reading [loneQuote]) with
      | .halted .tokenToString _ => true
      | _ => false) = true := by
      decide +kernel
    split at halted
    · rename_i ch same
      exact ⟨ch, same⟩
    · cases halted

end Perdition
