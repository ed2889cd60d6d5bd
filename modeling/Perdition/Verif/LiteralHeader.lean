import Mathlib.Data.List.Basic
import Perdition.Verif.Strings

/-!
# Literal headers

`acap_token_status` hands what stands between the braces to `strtoul`, which reads more than the
digits of a header: blanks and a sign in front of them, and a negative number by its complement.
-/
namespace Perdition

/-! ## What `strtoul` reads -/

/-- The sign in front of the digits. -/
inductive Sign where
  /-- No sign. -/
  | none
  /-- `+`. -/
  | plus
  /-- `-`. -/
  | minus
  deriving DecidableEq

/-- The text of a sign. -/
def Sign.text : Sign → List Byte
  | .none => []
  | .plus => [43]
  | .minus => [45]

/-- A number as `strtoul` takes it. -/
structure Numeral where
  /-- The white space that is skipped. -/
  blanks : List Byte
  /-- The sign. -/
  sign : Sign
  /-- The digits. -/
  digits : List Byte
  /-- The white space is white. -/
  blank : ∀ b ∈ blanks, isSpace b = true
  /-- The digits are decimal. -/
  decimal : ∀ b ∈ digits, isDigit b = true
  /-- There is a digit. -/
  nonempty : digits ≠ []

namespace Numeral

@[ext] theorem ext {left right : Numeral} (blanks : left.blanks = right.blanks)
    (sign : left.sign = right.sign) (digits : left.digits = right.digits) : left = right := by
  cases left; cases right; simp_all

/-- The bytes of a number. -/
def text (number : Numeral) : List Byte := number.blanks ++ number.sign.text ++ number.digits

/-- The value of the digits. -/
def value (number : Numeral) : Nat := digitsValue 0 number.digits

/-- The number is its digits. -/
def Plain (number : Numeral) : Prop := number.blanks = [] ∧ number.sign = .none

/-- What `strtoul` returns: a number past the range as its end, a negative one by its complement. -/
def read (number : Numeral) : Nat :=
  if ulongMax < number.value then ulongMax
  else if number.sign = .minus then (2 ^ 64 - number.value) % 2 ^ 64
  else number.value

end Numeral

/-- The sign characters are neither blanks nor digits. -/
theorem sign_apart : isSpace 43 = false ∧ isSpace 45 = false ∧ isDigit 43 = false ∧
    isDigit 45 = false := by
  decide

/-- The bytes of a number are not NUL. -/
theorem Numeral.noNul (number : Numeral) : 0 ∉ number.text := by
  intro inside
  rw [Numeral.text, List.mem_append, List.mem_append] at inside
  rcases inside with (blank | sign) | digit
  · exact absurd (number.blank 0 blank) (by decide)
  · cases signed : number.sign with
    | none => simp [signed, Sign.text] at sign
    | plus => simp [signed, Sign.text] at sign
    | minus => simp [signed, Sign.text] at sign
  · exact absurd (number.decimal 0 digit) (by decide)

/-- A number ends in a digit. -/
theorem Numeral.last (number : Numeral) :
    ∃ d, number.text.getLast? = some d ∧ isDigit d = true := by
  refine ⟨number.digits.getLast number.nonempty, ?_, number.decimal _ (List.getLast_mem _)⟩
  rw [Numeral.text, List.getLast?_append, List.getLast?_eq_some_getLast number.nonempty]
  rfl

/-- `strtoul` sees the sign and the digits of a number, and nothing behind them. -/
theorem strtoulParts_numeral (number : Numeral) :
    strtoulParts number.text = (decide (number.sign = .minus), number.digits, []) := by
  have all : number.digits.takeWhile isDigit = number.digits :=
    List.takeWhile_eq_self_iff.mpr number.decimal
  have none_ : number.digits.dropWhile isDigit = [] := List.dropWhile_eq_nil_iff.mpr number.decimal
  have trimmed : ∀ rest, (∀ b, rest.head? = some b → isSpace b = false) →
      (number.blanks ++ rest).dropWhile isSpace = rest := by
    intro rest solid
    rw [List.dropWhile_append_of_pos number.blank]
    cases rest with
    | nil => rfl
    | cons b rest => exact List.dropWhile_cons_of_neg (by simp [solid b rfl])
  cases digits : number.digits with
  | nil => exact absurd digits number.nonempty
  | cons b rest =>
    have first := digit_plain (number.decimal b (by rw [digits]; exact List.mem_cons_self ..))
    rw [digits] at all none_
    cases sign : number.sign with
    | none =>
      unfold strtoulParts
      rw [Numeral.text, sign, Sign.text, List.append_nil, digits,
        trimmed (b :: rest) (by rintro c ⟨⟩; exact first.2.2.2.2.2.2)]
      dsimp only
      split
      · rename_i same
        exact absurd (List.cons.inj same).1 first.2.1
      · rename_i same
        exact absurd (List.cons.inj same).1 first.2.2.1
      · simp [all, none_]
    | plus =>
      unfold strtoulParts
      rw [Numeral.text, sign, Sign.text, List.append_assoc, digits,
        trimmed ([43] ++ b :: rest) (by rintro c ⟨⟩; exact sign_apart.1)]
      simp [all, none_]
    | minus =>
      unfold strtoulParts
      rw [Numeral.text, sign, Sign.text, List.append_assoc, digits,
        trimmed ([45] ++ b :: rest) (by rintro c ⟨⟩; exact sign_apart.2.1)]
      simp [all, none_]

/-- `strtoul` reads a number. -/
theorem strtoul_numeral (number : Numeral) : strtoul (cstr number.text) = number.read := by
  simp only [strtoul, cstr_content number.noNul, strtoulParts_numeral, decide_eq_true_eq]
  rfl

/-- What `strtoul` takes as a whole is a number. -/
theorem exists_numeral {text : List Byte} (some_ : text ≠ [])
    (takes : strtoulTakesAll text = true) : ∃ number : Numeral, number.text = text := by
  have split_ := List.takeWhile_append_dropWhile (p := isSpace) (l := text)
  have blank : ∀ b ∈ text.takeWhile isSpace, isSpace b = true := fun b inside =>
    List.mem_takeWhile_imp inside
  -- The digits are what is left behind the sign, whichever it is.
  have behind : ∀ (sign : Sign) (body : List Byte), text.dropWhile isSpace = sign.text ++ body →
      (if (body.takeWhile isDigit).isEmpty then text else body.dropWhile isDigit) = [] →
      ∃ number : Numeral, number.text = text := by
    intro sign body trimmed left
    split at left
    · exact absurd left some_
    · rename_i digits
      have whole := List.takeWhile_append_dropWhile (p := isDigit) (l := body)
      rw [left, List.append_nil] at whole
      refine ⟨⟨text.takeWhile isSpace, sign, body, blank, ?_, ?_⟩, ?_⟩
      · intro b inside
        rw [← whole] at inside
        exact List.mem_takeWhile_imp inside
      · rintro rfl
        exact digits rfl
      · rw [Numeral.text, List.append_assoc, ← trimmed, split_]
  rw [strtoulTakesAll, List.isEmpty_iff] at takes
  unfold strtoulParts at takes
  dsimp only at takes
  rw [apply_ite (fun parts : Bool × List Byte × List Byte => parts.2.2)] at takes
  dsimp only at takes
  split at takes
  · rename_i body trimmed
    exact behind .minus body trimmed takes
  · rename_i body trimmed
    exact behind .plus body trimmed takes
  · exact behind .none _ rfl takes

/-- A text is one number at most. -/
theorem Numeral.unique {left right : Numeral} (same : left.text = right.text) : left = right := by
  have parts := strtoulParts_numeral left
  rw [same, strtoulParts_numeral right, Prod.mk.injEq, Prod.mk.injEq, decide_eq_decide] at parts
  obtain ⟨minus, digits, -⟩ := parts
  have fronts : left.blanks ++ left.sign.text = right.blanks ++ right.sign.text := by
    rw [Numeral.text, Numeral.text, digits] at same
    exact List.append_cancel_right same
  have plus : ∀ {one other : Numeral}, one.blanks ++ [43] = other.blanks → False := by
    intro one other ends
    have blank := other.blank 43 (by rw [← ends]; simp)
    rw [sign_apart.1] at blank
    exact Bool.noConfusion blank
  have signs : left.sign = right.sign := by
    cases one : left.sign with
    | minus => exact (minus.mpr one).symm
    | none =>
      cases other : right.sign with
      | none => rfl
      | minus => rw [minus.mp other] at one; cases one
      | plus =>
        rw [one, other, Sign.text, Sign.text, List.append_nil] at fronts
        exact (plus fronts.symm).elim
    | plus =>
      cases other : right.sign with
      | plus => rfl
      | minus => rw [minus.mp other] at one; cases one
      | none =>
        rw [one, other, Sign.text, Sign.text, List.append_nil] at fronts
        exact (plus fronts).elim
  rw [signs] at fronts
  exact Numeral.ext (List.append_cancel_right fronts) signs digits.symm

/-! ## Headers -/

/-- `ACAP_LITERAL_MAX` where `size_t` has 64 bits. -/
def acapLiteralMax : Nat := 4294967296

/-- The bytes of a header around the text of its number. -/
def headerOf (plus : Bool) (text : List Byte) : List Byte :=
  123 :: (text ++ (if plus then [43] else []) ++ [125])

/-- A token announces a literal of `n` bytes: it ends its line, and between its braces stand digits
of that value and a plus sign where the literal is not synchronising. -/
def AnnouncesLiteral (t : Token) (plus : Bool) (n : Nat) : Prop :=
  t.isEol = true ∧ ∃ digits, digits ≠ [] ∧ (∀ b ∈ digits, isDigit b = true) ∧
    t.buf = headerOf plus digits ∧ digitsValue 0 digits = n ∧ n ≤ acapLiteralMax

/-- `strtoul` returns no more than the largest length: the value is at most that, or it is the
complement of such a length with a minus sign. -/
def Numeral.Small (number : Numeral) : Prop :=
  if number.sign = .minus then
    number.value = 0 ∨ (2 ^ 64 - acapLiteralMax ≤ number.value ∧ number.value < 2 ^ 64)
  else number.value ≤ acapLiteralMax

/-- A token that ends its line has a small number between its braces with white space or a sign in
front of the digits. -/
def LooseHeader (t : Token) : Prop :=
  t.isEol = true ∧ ∃ (number : Numeral) (plus : Bool), ¬ number.Plain ∧
    t.buf = headerOf plus number.text ∧ number.Small

theorem Numeral.small_iff (number : Numeral) :
    ¬ (number.read = ulongMax ∨ acapLiteralMax < number.read) ↔ number.Small := by
  rw [Numeral.read, Numeral.Small]
  by_cases past : ulongMax < number.value
  · rw [if_pos past]
    simp only [ulongMax] at past
    split <;> simp only [acapLiteralMax, ulongMax, true_or, not_true_eq_false, false_iff] <;> omega
  · rw [if_neg past]
    simp only [ulongMax] at past
    split <;> simp only [acapLiteralMax, ulongMax] <;> omega

theorem literalType_ne (plus : Bool) :
    literalType plus ≠ .err ∧ literalType plus ≠ .atom ∧ literalType plus ≠ .quoted := by
  cases plus <;> decide

/-- What is left of a token between the braces. -/
theorem between_braces {buf : List Byte} (first : buf.head? = some 123)
    (last : buf.getLast? = some 125) (long : 2 ≤ buf.length) :
    buf = 123 :: ((buf.drop 1).dropLast ++ [125]) := by
  cases buf with
  | nil => simp at first
  | cons b rest =>
    have brace : b = 123 := by simpa using first
    cases rest with
    | nil => simp at long
    | cons c rest =>
      have ends : (c :: rest).getLast (by simp) = 125 := by
        rw [List.getLast?_cons_cons, List.getLast?_eq_some_getLast (by simp)] at last
        exact Option.some.inj last
      have whole := List.dropLast_concat_getLast (l := c :: rest) (by simp)
      rw [ends] at whole
      rw [brace, List.drop_succ_cons, List.drop_zero, whole]

/-- The tests behind the brace and the sign are passed by a literal. -/
theorem taken_of_literal {text : List Byte} {type found : AcapType} {n : Nat} {cut : Prop}
    [Decidable cut] (literal : type ≠ .err)
    (status : (if cut then (AcapType.err, 0)
      else if strtoul (cstr text) = ulongMax ∨ 4294967296 < strtoul (cstr text) then (.err, 0)
      else if (!strtoulTakesAll text) = true then (.err, 0)
      else (found, strtoul (cstr text))) = (type, n)) :
    ¬ cut ∧ strtoulTakesAll text = true ∧ ¬ (n = ulongMax ∨ acapLiteralMax < n) ∧ found = type ∧
      strtoul (cstr text) = n := by
  split at status
  · exact absurd (Prod.mk.inj status).1.symm literal
  rename_i whole
  split at status
  · exact absurd (Prod.mk.inj status).1.symm literal
  rename_i small
  split at status
  · exact absurd (Prod.mk.inj status).1.symm literal
  rename_i takes
  obtain ⟨same, value⟩ := Prod.mk.inj status
  simp only [Bool.not_eq_true', Bool.not_eq_false] at takes
  rw [value] at small
  exact ⟨whole, takes, small, same, value⟩

/-- A token that is taken for a literal has a text between the braces that `strtoul` takes. -/
theorem acapTokenStatus_text {platform : Platform} {t : Token} {plus : Bool} {n : Nat}
    (literal : acapTokenStatus platform t = (literalType plus, n)) :
    t.isEol = true ∧ ∃ text, text ≠ [] ∧ t.buf = headerOf plus text ∧
      strtoulTakesAll text = true ∧ strtoul (cstr text) = n ∧
      ¬ (n = ulongMax ∨ acapLiteralMax < n) := by
  have types := literalType_ne plus
  rw [acapTokenStatus] at literal
  split at literal
  · exact absurd (Prod.mk.inj literal).1.symm types.1
  split at literal
  · split at literal
    · exact absurd (Prod.mk.inj literal).1.symm types.2.1
    split at literal
    · exact absurd (Prod.mk.inj literal).1.symm types.2.2
    · exact absurd (Prod.mk.inj literal).1.symm types.1
  rename_i braces
  rw [not_or, not_not, not_not] at braces
  split at literal
  · exact absurd (Prod.mk.inj literal).1.symm types.1
  rename_i eol
  split at literal
  · exact absurd (Prod.mk.inj literal).1.symm types.1
  rename_i long
  have whole := between_braces braces.1 braces.2 (by simp only [Token.len] at long; omega)
  simp only [Bool.not_eq_true', Bool.not_eq_false] at eol
  refine ⟨eol, ?_⟩
  have length := congrArg List.length whole
  simp only [List.length_cons, List.length_append, List.length_nil] at length
  simp only [Token.len] at long
  dsimp only at literal
  by_cases sign : (List.drop 1 t.buf).dropLast.getLast? = some 43
  · have cut : (List.drop 1 t.buf).dropLast.dropLast ++ [43] = (List.drop 1 t.buf).dropLast :=
      List.dropLast_append_getLast? 43 sign
    rw [if_pos sign, if_pos sign] at literal
    obtain ⟨longer, takes, small, type, value⟩ := taken_of_literal types.1 literal
    have plus_ : plus = true := by
      cases plus with
      | true => rfl
      | false => simp [literalType] at type
    refine ⟨_, ?_, ?_, takes, value, small⟩
    · intro nothing
      rw [← cut, nothing] at length
      simp only [List.nil_append, List.length_cons, List.length_nil] at length
      exact longer ⟨sign, by simp only [Token.len]; omega⟩
    · rw [plus_, headerOf, if_pos rfl, cut]
      exact whole
  · rw [if_neg sign, if_neg sign] at literal
    obtain ⟨_, takes, small, type, value⟩ := taken_of_literal types.1 literal
    have plus_ : plus = false := by
      cases plus with
      | false => rfl
      | true => simp [literalType] at type
    refine ⟨_, ?_, ?_, takes, value, small⟩
    · intro nothing
      rw [nothing] at length
      simp only [List.length_nil] at length
      omega
    · rw [plus_, headerOf, if_neg Bool.false_ne_true, List.append_nil]
      exact whole

/-- A token with such a text between the braces is taken for a literal. -/
theorem acapTokenStatus_taken (platform : Platform) {t : Token} {plus : Bool} {text : List Byte}
    (eol : t.isEol = true) (some_ : text ≠ []) (sign : text.getLast? ≠ some 43)
    (whole : t.buf = headerOf plus text) (takes : strtoulTakesAll text = true)
    (small : ¬ (strtoul (cstr text) = ulongMax ∨ acapLiteralMax < strtoul (cstr text))) :
    acapTokenStatus platform t = (literalType plus, strtoul (cstr text)) := by
  have inner : (t.buf.drop 1).dropLast = text ++ if plus then [43] else [] := by
    rw [whole, headerOf, List.drop_succ_cons, List.drop_zero, List.dropLast_concat]
  have last : t.buf.getLast? = some 125 := by
    rw [whole, headerOf, List.getLast?_cons, List.getLast?_concat]
    rfl
  have first : t.buf.head? = some 123 := by rw [whole]; rfl
  have positive := List.length_pos_iff.mpr some_
  have length : t.len = text.length + (if plus then 1 else 0) + 2 := by
    rw [Token.len, whole, headerOf]
    cases plus <;> simp
  rw [acapTokenStatus, if_neg (by simp [Token.isNull, whole, headerOf]),
    if_neg (by rw [first, last]; simp), if_neg (by simp [eol]), if_neg (by omega)]
  dsimp only
  rw [inner]
  simp only [acapLiteralMax] at small
  cases plus with
  | true =>
    simp only [if_true] at length ⊢
    rw [List.getLast?_concat, List.dropLast_concat, if_neg (by omega), if_pos rfl, if_neg small,
      if_neg (by simp [takes]), if_pos rfl, literalType, if_pos rfl]
  | false =>
    simp only [Bool.false_eq_true, if_false, List.append_nil]
    rw [if_neg (fun both => sign both.1), if_neg sign, if_neg small, if_neg (by simp [takes]),
      if_neg sign, literalType, if_neg Bool.false_ne_true]

/-- A token is taken for a literal exactly where it ends its line and has a small number between its
braces, and the length is the number `strtoul` returns. -/
theorem acapTokenStatus_numeral (platform : Platform) (t : Token) (plus : Bool) (n : Nat) :
    acapTokenStatus platform t = (literalType plus, n) ↔
      t.isEol = true ∧ ∃ number : Numeral,
        t.buf = headerOf plus number.text ∧ number.Small ∧ number.read = n := by
  constructor
  · intro literal
    have ⟨eol, text, some_, whole, takes, value, small⟩ := acapTokenStatus_text literal
    have ⟨number, same⟩ := exists_numeral some_ takes
    rw [← same, strtoul_numeral] at value
    rw [← value, number.small_iff] at small
    exact ⟨eol, number, by rw [same]; exact whole, small, value⟩
  · rintro ⟨eol, number, whole, small, rfl⟩
    have ⟨d, ends, digit⟩ := number.last
    have taken := @acapTokenStatus_taken platform t plus number.text eol
      (by intro nothing; rw [nothing] at ends; simp at ends)
      (by rw [ends]; rintro ⟨⟩; exact absurd digit (by decide)) whole
      (by rw [strtoulTakesAll, strtoulParts_numeral]; rfl)
      (by rw [strtoul_numeral]; exact number.small_iff.mpr small)
    rw [strtoul_numeral] at taken
    exact taken

/-- The bytes of a header hold one number at most. -/
theorem headerOf_unique {one other : Bool} {left right : Numeral}
    (same : headerOf one left.text = headerOf other right.text) : one = other ∧ left = right := by
  have ends : ∀ {plus : Bool} {number : Numeral},
      (number.text ++ if plus then [43] else []).getLast? = some 43 ↔ plus = true := by
    intro plus number
    cases plus with
    | true => simp
    | false =>
      have ⟨d, last, digit⟩ := number.last
      simp only [Bool.false_eq_true, if_false, List.append_nil, last, iff_false]
      rintro ⟨⟩
      exact absurd digit (by decide)
  have inner := List.append_cancel_right (List.cons.inj same).2
  have signs : one = other := by
    have iff_ := @ends one left
    rw [inner] at iff_
    exact Bool.eq_iff_iff.mpr (iff_.symm.trans ends)
  subst signs
  exact ⟨rfl, Numeral.unique (List.append_cancel_right inner)⟩

/-- The digits of a header are a plain number. -/
theorem announcesLiteral_iff (t : Token) (plus : Bool) (n : Nat) :
    AnnouncesLiteral t plus n ↔ t.isEol = true ∧ ∃ number : Numeral, number.Plain ∧
      t.buf = headerOf plus number.text ∧ number.Small ∧ number.read = n := by
  have plain : ∀ number : Numeral, number.Plain → number.text = number.digits ∧
      (number.Small ↔ number.value ≤ acapLiteralMax) ∧
      (number.value ≤ acapLiteralMax → number.read = number.value) := by
    intro number ⟨blanks, sign⟩
    have signless : number.sign ≠ .minus := by rw [sign]; exact Sign.noConfusion
    refine ⟨by rw [Numeral.text, blanks, sign]; rfl, by rw [Numeral.Small, if_neg signless], ?_⟩
    intro small
    rw [Numeral.read, if_neg (by simp only [ulongMax, acapLiteralMax] at *; omega),
      if_neg signless]
  constructor
  · rintro ⟨eol, digits, some_, decimal, whole, value, small⟩
    let number : Numeral := ⟨[], .none, digits, by simp, decimal, some_⟩
    have reads := plain number ⟨rfl, rfl⟩
    have bound : number.value ≤ acapLiteralMax := by
      change digitsValue 0 digits ≤ acapLiteralMax
      rw [value]
      exact small
    exact ⟨eol, number, ⟨rfl, rfl⟩, by rw [reads.1]; exact whole, reads.2.1.mpr bound,
      (reads.2.2 bound).trans value⟩
  · rintro ⟨eol, number, isPlain, whole, small, value⟩
    have reads := plain number isPlain
    have bound := reads.2.1.mp small
    rw [reads.2.2 bound] at value
    exact ⟨eol, number.digits, number.nonempty, number.decimal, by rw [← reads.1]; exact whole,
      value, by rw [← value]; exact bound⟩

/-- The tokens taken for literals are those that announce one, with the length announced, except
where white space or a sign stands in front of a small number. -/
theorem acapTokenStatus_announces_iff (platform : Platform) (t : Token) :
    (∀ plus n, acapTokenStatus platform t = (literalType plus, n) ↔ AnnouncesLiteral t plus n) ↔
      ¬ LooseHeader t := by
  constructor
  · rintro exactly ⟨eol, number, plus, notPlain, whole, small⟩
    have taken := (acapTokenStatus_numeral platform t plus number.read).mpr
      ⟨eol, number, whole, small, rfl⟩
    have ⟨_, other, isPlain, same, _⟩ :=
      (announcesLiteral_iff t plus number.read).mp ((exactly plus number.read).mp taken)
    rw [whole] at same
    rw [(headerOf_unique same).2] at notPlain
    exact notPlain isPlain
  · intro tight plus n
    rw [acapTokenStatus_numeral, announcesLiteral_iff]
    constructor
    · rintro ⟨eol, number, whole, small, value⟩
      by_cases isPlain : number.Plain
      · exact ⟨eol, number, isPlain, whole, small, value⟩
      · exact absurd ⟨eol, number, plus, isPlain, whole, small⟩ tight
    · rintro ⟨eol, number, -, whole, small, value⟩
      exact ⟨eol, number, whole, small, value⟩

/-- A plus sign in front of the digits passes for a part of the number. -/
theorem acapTokenStatus_signed : ¬ ∀ (platform : Platform) (t : Token) (plus : Bool) (n : Nat),
    acapTokenStatus platform t = (literalType plus, n) ↔ AnnouncesLiteral t plus n := by
  intro announces
  have taken := (announces Platform.sample ⟨headerOf false [43, 53], tokenEol⟩ false 5).mp
    (by decide +kernel)
  have ⟨_, digits, _, decimal, whole, _⟩ := taken
  have inside : [43, 53] ++ [] = digits ++ [] := List.append_cancel_right (List.cons.inj whole).2
  rw [List.append_nil, List.append_nil] at inside
  have sign := decimal 43 (by rw [← inside]; decide)
  exact absurd sign (by decide)

end Perdition
