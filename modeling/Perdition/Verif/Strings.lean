import Perdition.Verif.Framing
import Perdition.Verif.Lines
import Perdition.Verif.Setup

/-!
# Strings on the wire

A string is sent between quotes, with its quotes and backslashes escaped, or as a literal behind the
count of its bytes. The tokeniser knows quotes and does not know escapes, so a quoted string is one
word only where each of its spaces comes after an even count of its own quotes.
-/
namespace Perdition

open Lib Program

/-! ## Words that stay whole -/

/-- Whether a quote is open after these bytes of a word, unless a space ends the word before that. -/
def openAfter (quotes : Bool) : Bool → List Byte → Option Bool
  | quoted, [] => some quoted
  | quoted, b :: rest =>
    if b = space ∧ !quoted then none
    else openAfter quotes (if quotes && b == dquote then !quoted else quoted) rest

/-- Bytes that no space ends go into the word. -/
theorem wordsFrom_open {quotes : Bool} {content : List Byte} (noCr : cr ∉ content)
    (line : List Byte) :
    ∀ {word : List Byte} {quoted after : Bool}, openAfter quotes quoted content = some after →
      word.length + content.length < maxLineLength →
      wordsFrom quotes word quoted (content ++ line) =
        wordsFrom quotes (word ++ content) after line := by
  induction content with
  | nil =>
    intro word quoted after still _
    simp only [openAfter, Option.some.injEq] at still
    simp [still]
  | cons b content ih =>
    intro word quoted after still short
    simp only [List.mem_cons, not_or] at noCr
    simp only [List.length_cons] at short
    rw [openAfter] at still
    by_cases splits : b = space ∧ !quoted
    · simp [splits] at still
    rw [if_neg splits] at still
    have longer : (word ++ [b]).length = word.length + 1 := by simp
    rw [List.cons_append, wordsFrom, if_neg (Ne.symm noCr.1), if_neg splits, if_neg (by omega),
      ih noCr.2 still (by omega), List.append_assoc, List.singleton_append]

/-- Bytes that a space ends begin with a word. -/
theorem wordsFrom_split {quotes : Bool} {content : List Byte} (noCr : cr ∉ content)
    (line : List Byte) :
    ∀ (word : List Byte) {quoted : Bool}, openAfter quotes quoted content = none →
      word.length + content.length < maxLineLength →
      ∃ front, (wordsFrom quotes word quoted (content ++ line)).head? = some (word ++ front) ∧
        front.length < content.length := by
  induction content with
  | nil => exact fun _ _ ended => by simp [openAfter] at ended
  | cons b content ih =>
    intro word quoted ended short
    simp only [List.mem_cons, not_or] at noCr
    simp only [List.length_cons] at short
    rw [openAfter] at ended
    rw [List.cons_append, wordsFrom, if_neg (Ne.symm noCr.1)]
    by_cases splits : b = space ∧ !quoted
    · rw [if_pos splits]
      exact ⟨[], by simp, by simp⟩
    · rw [if_neg splits] at ended ⊢
      have longer : (word ++ [b]).length = word.length + 1 := by simp
      rw [if_neg (by omega)]
      obtain ⟨front, first, shorter⟩ := ih noCr.2 (word ++ [b]) ended (by omega)
      refine ⟨b :: front, ?_, by simpa using shorter⟩
      rw [first, List.append_assoc, List.singleton_append]

/-- The first word begins the line. -/
theorem wordsFrom_begins (quotes : Bool) (line : List Byte) :
    ∀ (word : List Byte) (quoted : Bool), ∀ w ∈ (wordsFrom quotes word quoted line).head?,
      w <+: word ++ withoutCr line := by
  induction line with
  | nil => simp [wordsFrom, withoutCr]
  | cons b line ih =>
    intro word quoted w first
    rw [wordsFrom] at first
    by_cases return_ : b = cr
    · rw [if_pos return_] at first
      simpa [withoutCr, return_] using ih word quoted w first
    rw [if_neg return_] at first
    have kept : withoutCr (b :: line) = b :: withoutCr line := by simp [withoutCr, return_]
    rw [kept]
    split at first
    · simp only [List.head?_cons, Option.mem_def, Option.some.injEq] at first
      rw [← first]
      exact List.prefix_append _ _
    · split at first
      · simp only [List.head?_cons, Option.mem_def, Option.some.injEq] at first
        exact ⟨withoutCr line, by rw [← first]; simp⟩
      · simpa using ih _ _ w first

/-- Bytes are the first word of a line exactly where no space ends them, and where no quote is open
after them unless the line ends there. -/
theorem words_first (quotes : Bool) {content : List Byte} (noCr : cr ∉ content)
    (short : content.length < maxLineLength) (line : List Byte) :
    ((∃ after, openAfter quotes false content = some after ∧ after = false) →
      words quotes (content ++ space :: line) = content :: words quotes line) ∧
    (openAfter quotes false content ≠ some false →
      (words quotes (content ++ space :: line)).head? ≠ some content) := by
  have fits : ([] : List Byte).length + content.length < maxLineLength := by simpa using short
  constructor
  · rintro ⟨_, closed, rfl⟩
    rw [words, wordsFrom_open noCr _ closed fits, wordsFrom, if_neg (by decide), if_pos (by simp)]
    rfl
  · intro broken first
    cases ended : openAfter quotes false content with
    | none =>
      obtain ⟨front, head, shorter⟩ := wordsFrom_split noCr (space :: line) [] ended fits
      rw [words, head, List.nil_append, Option.some.injEq] at first
      rw [first] at shorter
      exact Nat.lt_irrefl _ shorter
    | some after =>
      have open_ : after = true := by
        cases after with
        | true => rfl
        | false => exact absurd ended broken
      rw [words, wordsFrom_open noCr _ ended fits, open_, List.nil_append, wordsFrom,
        if_neg (by decide), if_neg (by simp)] at first
      split at first
      · simp at first
      · have begins := wordsFrom_prefix _ _ _ _ content first
        have longer := begins.length_le
        rw [List.length_append, List.length_singleton] at longer
        omega

/-- Bytes that end a line are its one word exactly where no space ends them. -/
theorem words_last (quotes : Bool) {content : List Byte} (noCr : cr ∉ content)
    (short : content.length < maxLineLength) :
    ((openAfter quotes false content).isSome → words quotes (content ++ [cr]) = [content]) ∧
    (openAfter quotes false content = none →
      (words quotes (content ++ [cr])).head? ≠ some content) := by
  have fits : ([] : List Byte).length + content.length < maxLineLength := by simpa using short
  constructor
  · intro still
    obtain ⟨after, ended⟩ := Option.isSome_iff_exists.mp still
    rw [words, wordsFrom_open noCr _ ended fits]
    simp [wordsFrom]
  · intro ended first
    obtain ⟨front, head, shorter⟩ := wordsFrom_split noCr [cr] [] ended fits
    rw [words, head, List.nil_append, Option.some.injEq] at first
    rw [first] at shorter
    exact Nat.lt_irrefl _ shorter

/-! ## Escapes -/

/-- Text that may stand between quotes, as far as escapes go. -/
inductive Escaped : List Byte → Prop where
  /-- No text. -/
  | nil : Escaped []
  /-- A byte that is not special. -/
  | plain {b : Byte} {rest : List Byte} (noQuote : b ≠ dquote) (noEscape : b ≠ backslash)
      (text : Escaped rest) : Escaped (b :: rest)
  /-- A byte that is escaped. -/
  | escape {b : Byte} {rest : List Byte} (text : Escaped rest) : Escaped (backslash :: b :: rest)

/-- Escape the quotes and the backslashes. -/
def escape (content : List Byte) : List Byte :=
  content.flatMap fun b => if b = dquote ∨ b = backslash then [backslash, b] else [b]

@[simp] theorem escape_nil : escape [] = [] := rfl

theorem escape_cons (b : Byte) (content : List Byte) :
    escape (b :: content) =
      (if b = dquote ∨ b = backslash then [backslash, b] else [b]) ++ escape content := by
  simp [escape]

/-- What is escaped may stand between quotes. -/
theorem escaped_escape (content : List Byte) : Escaped (escape content) := by
  induction content with
  | nil => exact .nil
  | cons b content ih =>
    rw [escape_cons]
    split
    · exact .escape ih
    · rename_i plain
      rw [not_or] at plain
      exact .plain plain.1 plain.2 ih

/-- Other bytes before text that may stand between quotes. -/
theorem Escaped.append {front back : List Byte}
    (plain : ∀ b ∈ front, b ≠ dquote ∧ b ≠ backslash) (text : Escaped back) :
    Escaped (front ++ back) := by
  induction front with
  | nil => exact text
  | cons b front ih =>
    have first := plain b (List.mem_cons_self ..)
    exact .plain first.1 first.2 (ih fun c member => plain c (List.mem_cons_of_mem b member))

/-- The text ends at the first quote that is not escaped. -/
theorem Escaped.unique {left : List Byte} (first : Escaped left) :
    ∀ {right back forth : List Byte}, Escaped right →
      left ++ dquote :: back = right ++ dquote :: forth → left = right := by
  induction first with
  | nil =>
    intro right back forth second same
    cases second with
    | nil => rfl
    | plain noQuote => exact absurd (List.cons.inj same).1.symm noQuote
    | escape => exact absurd (List.cons.inj same).1 (by decide)
  | plain noQuote noEscape text ih =>
    intro right back forth second same
    cases second with
    | nil => exact absurd (List.cons.inj same).1 noQuote
    | plain _ _ others =>
      have ⟨head, tail⟩ := List.cons.inj same
      rw [head, ih others tail]
    | escape => exact absurd (List.cons.inj same).1 noEscape
  | escape text ih =>
    intro right back forth second same
    cases second with
    | nil => exact absurd (List.cons.inj same).1 (by decide)
    | plain _ noEscape => exact absurd (List.cons.inj same).1.symm noEscape
    | escape others =>
      have ⟨_, tail⟩ := List.cons.inj same
      have ⟨head, tail⟩ := List.cons.inj tail
      rw [head, ih others tail]

/-- Bytes that are not special are escaped as they are. -/
theorem escape_plain {content : List Byte} (plain : ∀ b ∈ content, b ≠ dquote ∧ b ≠ backslash) :
    escape content = content := by
  induction content with
  | nil => rfl
  | cons b content ih =>
    have first := plain b (List.mem_cons_self ..)
    rw [escape_cons, if_neg (by simp [first]), ih fun c member =>
      plain c (List.mem_cons_of_mem b member)]
    rfl

/-- Escaping adds only backslashes. -/
theorem mem_escape {content : List Byte} {b : Byte} (member : b ∈ escape content) :
    b = backslash ∨ b ∈ content := by
  rw [escape, List.mem_flatMap] at member
  have ⟨c, inside, here⟩ := member
  split at here
  · rcases List.mem_cons.mp here with slash | same
    · exact .inl slash
    · rw [List.mem_singleton.mp same]
      exact .inr inside
  · rw [List.mem_singleton.mp here]
    exact .inr inside

/-! ## Quoted strings -/

/-- A string between quotes. -/
def quotedWire (content : List Byte) : List Byte := dquote :: (escape content ++ [dquote])

theorem noCr_quotedWire {content : List Byte} (noCr : cr ∉ content) : cr ∉ quotedWire content := by
  intro member
  rw [quotedWire, List.mem_cons, List.mem_append, List.mem_singleton] at member
  rcases member with quote | inside | quote
  · exact absurd quote (by decide)
  · rcases mem_escape inside with slash | inside
    · exact absurd slash (by decide)
    · exact noCr inside
  · exact absurd quote (by decide)

/-- A character is a quote or a backslash only where its byte is one. -/
theorem char_special (platform : Platform) {b : Byte} (plain : quotedSpecial (platform.char b) = false) :
    b ≠ dquote ∧ b ≠ backslash := by
  constructor
  · rintro rfl
    have value : platform.char dquote = 0x22 := by
      rw [Platform.char, if_neg (by simp [dquote])]
      rfl
    simp [value, quotedSpecial] at plain
  · rintro rfl
    have value : platform.char backslash = 0x5C := by
      rw [Platform.char, if_neg (by simp [backslash])]
      rfl
    simp [value, quotedSpecial] at plain

theorem safeChar_plain {c : Int} (safe : safeChar c = true) : quotedSpecial c = false := by
  simp only [safeChar, Bool.and_eq_true, Bool.not_eq_true'] at safe
  exact safe.2

theorem large_plain {c : Int} (large : 0x80 ≤ c) : quotedSpecial c = false := by
  simp only [quotedSpecial, Bool.or_eq_false_iff, decide_eq_false_iff_not]
  omega

theorem utf8_1_plain {c : Int} (continued : utf8_1 c = true) : quotedSpecial c = false := by
  simp only [utf8_1, Bool.and_eq_true, decide_eq_true_eq] at continued
  exact large_plain continued.1

/-- The characters of a safe character are not special. -/
theorem safeUtf8Char_plain (buf : List Int) :
    ∀ c ∈ buf.take (safeUtf8Char buf), quotedSpecial c = false := by
  rw [safeUtf8Char.eq_def]
  split
  · simp
  · rename_i c0 rest
    by_cases one : safeChar c0
    · simpa [one] using safeChar_plain one
    rw [if_neg one]
    split
    · simp
    rename_i c1 rest
    by_cases two : utf8_2 c0 c1
    · simp only [utf8_2, Bool.and_eq_true, decide_eq_true_eq] at two
      have first := large_plain (c := c0) (by omega)
      simpa [show utf8_2 c0 c1 by simp [utf8_2, two], first] using utf8_1_plain two.2
    rw [if_neg two]
    split
    · simp
    rename_i c2 rest
    by_cases three : utf8_3 c0 c1 c2
    · rw [if_pos three]
      simp only [utf8_3, Bool.and_eq_true, decide_eq_true_eq] at three
      have first := large_plain (c := c0) (by omega)
      simpa [first] using ⟨utf8_1_plain three.1.2, utf8_1_plain three.2⟩
    rw [if_neg three]
    split
    · simp
    rename_i c3 rest
    by_cases four : utf8_4 c0 c1 c2 c3
    · rw [if_pos four]
      simp only [utf8_4, Bool.and_eq_true, decide_eq_true_eq] at four
      have first := large_plain (c := c0) (by omega)
      simpa [first] using ⟨utf8_1_plain four.1.1.2, utf8_1_plain four.1.2, utf8_1_plain four.2⟩
    · simp [four]

/-- What is counted without being safe is a backslash and a special character. -/
theorem quotedChar_two {buf : List Int} (none_ : safeUtf8Char buf = 0)
    (some_ : quotedChar buf ≠ 0) :
    ∃ c rest, buf = 92 :: c :: rest ∧ quotedSpecial c = true ∧ quotedChar buf = 2 := by
  rw [quotedChar.eq_def, if_neg (by simp [none_])] at some_ ⊢
  split at some_
  · rename_i c rest
    by_cases special : quotedSpecial c
    · exact ⟨c, rest, rfl, special, if_pos special⟩
    · exact absurd (if_neg special) some_
  · exact absurd rfl some_

/-- Text that `acap_strn_is_quoted` takes between two quotes is escaped. -/
theorem escaped_of_quotedChars (platform : Platform) :
    ∀ (rounds : Nat) {text : List Byte},
      quotedChars rounds (text.map platform.char) = true → Escaped text := by
  intro rounds
  induction rounds with
  | zero =>
    intro text taken
    have none_ : text = [] := by simpa [quotedChars] using taken
    rw [none_]
    exact .nil
  | succ rounds ih =>
    intro text taken
    rw [quotedChars] at taken
    by_cases none_ : text = []
    · rw [none_]
      exact .nil
    rw [if_neg (by simpa using none_)] at taken
    dsimp only at taken
    split at taken
    · exact absurd taken (by decide)
    rename_i some_
    rw [← List.map_drop] at taken
    have rest := ih taken
    by_cases safe : safeUtf8Char (text.map platform.char) = 0
    · -- a backslash and the byte it escapes
      have ⟨c, others, whole, _, two⟩ := quotedChar_two safe some_
      have ⟨b, more, text_, first, more_⟩ := List.map_eq_cons_iff.mp whole
      have ⟨b', more', text', _, _⟩ := List.map_eq_cons_iff.mp more_
      have slash : b = backslash := by
        by_contra other
        have byte : platform.char b = 0x5C := first
        rw [Platform.char] at byte
        split at byte
        · have small := b.toNat_lt
          omega
        · exact other (UInt8.toNat_inj.mp (by exact_mod_cast byte))
      rw [two, text_, text'] at rest
      rw [text_, text', slash]
      exact .escape rest
    · rw [quotedChar.eq_def, if_pos safe] at rest
      rw [← List.take_append_drop (safeUtf8Char (text.map platform.char)) text]
      refine Escaped.append (fun b member => char_special platform ?_) rest
      have inside : platform.char b ∈
          (text.map platform.char).take (safeUtf8Char (text.map platform.char)) := by
        rw [← List.map_take]
        exact List.mem_map_of_mem member
      exact safeUtf8Char_plain _ _ inside

/-- A token that begins with a quote is a quoted string or nothing. -/
theorem acapTokenStatus_quote (platform : Platform) (text : List Byte) (flag : Flag) :
    acapTokenStatus platform ⟨dquote :: text, flag⟩ =
      if acapStrnIsQuoted platform (dquote :: text) then (.quoted, text.length - 1)
      else (.err, 0) := by
  have atom : acapStrnIsAtom platform (dquote :: text) = false := by
    have value : platform.char dquote = 0x22 := by
      rw [Platform.char, if_neg (by simp [dquote])]
      rfl
    simp [acapStrnIsAtom, value, atomChar]
  rw [acapTokenStatus, if_neg (by simp [Token.isNull]), if_pos (.inl (by simp [dquote]))]
  simp [atom, Token.len]

/-- The first word of a line that begins with a quoted string is that string, or is no string. -/
theorem acapStrnIsQuoted_first {platform : Platform} {quotes : Bool} {content line w : List Byte}
    (noCr : cr ∉ content) (first : (words quotes (quotedWire content ++ line)).head? = some w)
    (quoted : acapStrnIsQuoted platform w = true) : w = quotedWire content := by
  have begins := wordsFrom_begins quotes (quotedWire content ++ line) [] false w first
  have whole : withoutCr (quotedWire content ++ line) = quotedWire content ++ withoutCr line := by
    rw [withoutCr, List.filter_append, List.filter_eq_self.mpr]
    · rfl
    · intro b member
      have other : b ≠ cr := fun same => noCr_quotedWire noCr (same ▸ member)
      simpa using other
  rw [List.nil_append, whole] at begins
  simp only [acapStrnIsQuoted, Bool.and_eq_true, decide_eq_true_eq] at quoted
  obtain ⟨⟨⟨⟨two, -⟩, head⟩, last⟩, inner⟩ := quoted
  cases w with
  | nil => simp at two
  | cons b text =>
    obtain rfl := Option.some.inj head
    have some_ : text ≠ [] := by
      rintro rfl
      simp at two
    have ends : text = text.dropLast ++ [dquote] := by
      have same := List.dropLast_concat_getLast some_
      rw [List.getLast?_cons, List.getLast?_eq_some_getLast some_, Option.getD_some] at last
      rw [Option.some.inj last] at same
      exact same.symm
    have escaped : Escaped text.dropLast := escaped_of_quotedChars platform _ inner
    obtain ⟨back, begins⟩ := begins
    rw [ends] at begins
    simp only [quotedWire, List.cons_append, List.append_assoc, List.nil_append, List.cons.injEq,
      true_and] at begins
    have same := escaped.unique (escaped_escape content) begins
    rw [ends, same, quotedWire]

/-! ## Announced counts -/

/-- A decimal number has its value. -/
theorem digitsValue_decimal (n : Nat) : digitsValue 0 (decimal n) = n := by
  have digits : ∀ (start : Nat) (cs : List Char), (∀ c ∈ cs, c.toNat < 256) →
      digitsValue start (cs.map fun c => UInt8.ofNat c.toNat) = Nat.ofDigitChars 10 cs start := by
    intro start cs
    induction cs generalizing start with
    | nil => exact fun _ => (Nat.ofDigitChars_nil).symm
    | cons c cs ih =>
      intro small
      have byte : (UInt8.ofNat c.toNat).toNat = c.toNat := by
        rw [UInt8.toNat_ofNat']
        exact Nat.mod_eq_of_lt (small c (List.mem_cons_self ..))
      have rest := ih (start * 10 + (c.toNat - 48)) fun d member =>
        small d (List.mem_cons_of_mem c member)
      rw [Nat.ofDigitChars_cons, Nat.mul_comm]
      rw [← byte] at rest
      rw [← byte]
      exact rest
  rw [decimal, digits, Nat.ofDigitChars_ten_toDigits]
  intro c member
  have digit := Nat.isDigit_of_mem_toDigits (by decide) (by decide) member
  simp only [Char.isDigit, ge_iff_le, Bool.and_eq_true, decide_eq_true_eq] at digit
  have high : c.toNat ≤ 57 := digit.2
  omega

/-- `strtoul` sees the digits of a decimal number. -/
theorem strtoulParts_decimal (n : Nat) : strtoulParts (decimal n) = (false, decimal n, []) := by
  have whole := @strtoulParts_digits _ [] (decimal_ne_nil n)
    (fun d member => isDigit_decimal member) nofun
  rwa [List.append_nil] at whole

/-- `strtoul` reads a decimal number back. -/
theorem strtoul_decimal {n : Nat} (small : n < ulongMax) :
    strtoul (cstr (decimal n)) = n ∧ strtoulTakesAll (decimal n) = true := by
  have noNul : 0 ∉ decimal n := fun nul => (digit_plain (isDigit_decimal nul)).1 rfl
  constructor
  · simp only [strtoul, cstr_content noNul, strtoulParts_decimal, digitsValue_decimal]
    rw [if_neg (by omega), if_neg (by simp)]
  · simp [strtoulTakesAll, strtoulParts_decimal]

/-- A literal before its bytes: their count, and a plus sign where it is not synchronising. -/
def literalHeader (plus : Bool) (n : Nat) : List Byte :=
  123 :: (decimal n ++ (if plus then [43] else []) ++ [125])

/-- A header is a word of its line. -/
theorem mem_header {plus : Bool} {n : Nat} {b : Byte} (member : b ∈ literalHeader plus n) :
    b ≠ cr ∧ b ≠ lf ∧ b ≠ space ∧ b ≠ dquote := by
  simp only [literalHeader, List.mem_append, List.mem_cons, List.not_mem_nil, or_false] at member
  rcases member with brace | (digit | sign) | brace
  · subst brace
    decide
  · have plain := digit_plain (isDigit_decimal digit)
    have noLf : b ≠ lf := fun same => by
      have odd := isDigit_decimal digit
      rw [same] at odd
      exact absurd odd (by decide)
    exact ⟨plain.2.2.2.1, noLf, plain.2.2.2.2.1, plain.2.2.2.2.2.1⟩
  · cases plus with
    | false => simp at sign
    | true =>
      have same : b = 43 := by simpa using sign
      subst same
      decide
  · subst brace
    decide

/-- The header of a literal that the buffer of the tokeniser holds fits a token. -/
theorem header_short (plus : Bool) {n : Nat} (short : n ≤ maxLineLength) :
    (literalHeader plus n).length < maxLineLength := by
  have digits : (decimal n).length ≤ 4 := by
    rw [decimal, List.length_map]
    apply (Nat.length_toDigits_le_iff (by decide) (by decide)).mpr
    simp only [maxLineLength] at short
    omega
  cases plus <;> simp [literalHeader, maxLineLength] <;> omega

/-- The type of a literal. -/
def literalType (plus : Bool) : AcapType :=
  if plus then .nonSychronisingLiteral else .sychronisingLiteral

/-- A header at the end of a line announces its literal. -/
theorem acapTokenStatus_header (platform : Platform) (plus : Bool) {n : Nat} (small : n ≤ 4294967296) :
    acapTokenStatus platform ⟨literalHeader plus n, tokenEol⟩ = (literalType plus, n) := by
  have ⟨value, takes⟩ := strtoul_decimal (n := n) (by simp only [ulongMax]; omega)
  have some_ : 0 < (decimal n).length := List.length_pos_iff.mpr (decimal_ne_nil n)
  have noPlus : (decimal n).getLast? ≠ some 43 := fun last =>
    (digit_plain (isDigit_decimal (List.mem_of_getLast? last))).2.2.1 rfl
  have inner : ((literalHeader plus n).drop 1).dropLast = decimal n ++ if plus then [43] else [] := by
    simp [literalHeader]
  have last : (literalHeader plus n).getLast? = some 125 := by
    simp [literalHeader, List.getLast?_cons]
  rw [acapTokenStatus, if_neg (by simp [Token.isNull, literalHeader]),
    if_neg (by rw [not_or]; simp [last]; simp [literalHeader]), if_neg (by simp [Token.isEol_eol])]
  have length : (Token.mk (literalHeader plus n) tokenEol).len =
      (decimal n).length + (if plus then 1 else 0) + 2 := by
    cases plus <;> simp [Token.len, literalHeader]
  rw [if_neg (by rw [length]; omega)]
  dsimp only
  rw [inner]
  cases plus with
  | true =>
    simp only [if_true] at length ⊢
    rw [if_neg (by rw [length]; omega)]
    simp [value, takes, ulongMax, literalType]
    omega
  | false =>
    simp [noPlus, value, takes, ulongMax, literalType]
    omega

/-- Behind a header a literal is read. -/
theorem acapTokenWrapper_header (platform : Platform) (plus : Bool) {n : Nat}
    (small : n ≤ 4294967296) (q : Queue) :
    acapTokenWrapper platform (⟨literalHeader plus n, tokenEol⟩ :: q) =
      acapTokenWrapperLiteral ⟨literalHeader plus n, tokenEol⟩ n (literalType plus) := by
  rw [acapTokenWrapper, acapTokenStatus_header platform plus small]
  cases plus <;> rfl

end Perdition
