import Perdition.Acap
import Perdition.Spec.Quoted
import Perdition.Verif.Strings

/-!
# Recognising quoted strings

Where `char` is signed every byte from 0x80 on is taken for a safe character; where it is not, the
sequences of three bytes include the beginnings of those of four. The strings that are recognised
rightly under both are found from what `quoted_char` takes at once under each.
-/
namespace Perdition

/-! ## Taking one character after another -/

/-- The count at the start of a text is that of a character of this kind, where there is one. -/
structure Measures (Char : List Byte → Prop) (first : List Byte → Nat) : Prop where
  /-- A character is counted. -/
  counted : ∀ {c}, Char c → ∀ rest, first (c ++ rest) = c.length
  /-- What is counted is a character. -/
  taken : ∀ {text}, first text ≠ 0 → Char (text.take (first text)) ∧ first text ≤ text.length
  /-- Every character has a byte. -/
  filled : ∀ {c}, Char c → c ≠ []

/-- A text of such characters is what the loop of `acap_strn_is_quoted` accepts. -/
theorem Measures.quotedChars_iff {Char : List Byte → Prop} {platform : Platform}
    (measures : Measures Char fun text => quotedChar (text.map platform.char)) (rounds : Nat) :
    ∀ text : List Byte, text.length ≤ rounds →
      (quotedChars rounds (text.map platform.char) = true ↔ Sequence Char text) := by
  induction rounds with
  | zero =>
    intro text short
    rw [List.length_eq_zero_iff.mp (Nat.le_zero.mp short)]
    exact ⟨fun _ => .nil, fun _ => rfl⟩
  | succ rounds ih =>
    intro text short
    cases text with
    | nil => exact ⟨fun _ => .nil, fun _ => rfl⟩
    | cons b text =>
      rw [quotedChars, if_neg (by simp)]
      dsimp only
      by_cases none_ : quotedChar ((b :: text).map platform.char) = 0
      · rw [if_pos none_]
        refine iff_of_false Bool.false_ne_true fun sequence => ?_
        generalize whole : b :: text = all at none_ sequence
        cases sequence with
        | nil => cases whole
        | @cons c rest char more =>
          have counted := measures.counted char rest
          exact absurd (List.length_eq_zero_iff.mp (counted.symm.trans none_)) (measures.filled char)
      · rw [if_neg none_]
        obtain ⟨char, within⟩ := measures.taken none_
        have rest : ((b :: text).drop (quotedChar ((b :: text).map platform.char))).length ≤
            rounds := by
          rw [List.length_drop]
          omega
        rw [← List.map_drop, ih _ rest]
        constructor
        · intro more
          have sequence := Sequence.cons char more
          rwa [List.take_append_drop] at sequence
        · intro sequence
          generalize b :: text = all at sequence
          cases sequence with
          | nil => exact .nil
          | @cons c rest char more =>
            have counted := measures.counted char rest
            rw [counted, List.drop_left]
            exact more

theorem quotedChar_safe {buf : List Int} {j : Nat} (count : safeUtf8Char buf = j)
    (some_ : j ≠ 0) : quotedChar buf = j := by
  rw [quotedChar.eq_def, count]
  exact if_pos some_

/-- A backslash and a special character are two. -/
theorem quotedChar_escaped {c d : Int} {rest : List Int} (none_ : safeUtf8Char (c :: d :: rest) = 0)
    (slash : c = 92) (special : quotedSpecial d = true) : quotedChar (c :: d :: rest) = 2 := by
  rw [quotedChar.eq_def, none_, slash]
  exact if_pos special

/-! ## Signed characters -/

section Signed

variable {platform : Platform} (signed : platform.charSigned = true)
include signed

theorem char_signed (b : Byte) :
    platform.char b = if 128 ≤ b.toNat then (b.toNat : Int) - 256 else b.toNat := by
  simp [Platform.char, signed]

/-- A byte from 0x80 on is a safe character. -/
theorem safeChar_signed (b : Byte) :
    safeChar (platform.char b) = decide (b ≠ 0 ∧ ¬ Special b) := by
  rw [char_signed signed]
  revert b
  exact byte_of_nat (by decide +kernel)

theorem quotedSpecial_signed (b : Byte) :
    quotedSpecial (platform.char b) = decide (Special b) := by
  rw [char_signed signed]
  revert b
  exact byte_of_nat (by decide +kernel)

theorem char_signed_high (b : Byte) : platform.char b < 0x80 := by
  have small := b.toNat_lt
  rw [char_signed signed]
  split <;> omega

/-- No sequence of more bytes than one is found. -/
theorem safeUtf8Char_signed (b : Byte) (rest : List Byte) :
    safeUtf8Char ((b :: rest).map platform.char) = if b ≠ 0 ∧ ¬ Special b then 1 else 0 := by
  have high := char_signed_high signed b
  have two (c : Int) : utf8_2 (platform.char b) c = false := by simp [utf8_2]; omega
  have three (c d : Int) : utf8_3 (platform.char b) c d = false := by simp [utf8_3]; omega
  have four (c d e : Int) : utf8_4 (platform.char b) c d e = false := by simp [utf8_4]; omega
  rw [List.map_cons, safeUtf8Char.eq_def]
  dsimp only
  rw [safeChar_signed signed]
  by_cases safe : b ≠ 0 ∧ ¬ Special b
  · rw [if_pos (decide_eq_true safe), if_pos safe]
  · rw [if_neg (by simpa using safe), if_neg safe]
    rcases rest with _ | ⟨c, _ | ⟨d, _ | ⟨e, rest⟩⟩⟩ <;> simp [two, three, four]

theorem char_backslash (b : Byte) : platform.char b = 92 ↔ b = backslash := by
  rw [char_signed signed]
  revert b
  exact byte_of_nat (by decide +kernel)

/-- Where `char` is signed, a character is a single byte or an escaped one. -/
theorem measures_signed :
    Measures LooseChar fun text => quotedChar (text.map platform.char) where
  counted {c} char rest := by
    cases char with
    | @plain b nul plain =>
      have one : safeUtf8Char ((b :: rest).map platform.char) = 1 :=
        (safeUtf8Char_signed signed b rest).trans (if_pos ⟨nul, plain⟩)
      exact quotedChar_safe one Nat.one_ne_zero
    | @escaped b special =>
      have none_ : safeUtf8Char ((backslash :: b :: rest).map platform.char) = 0 :=
        (safeUtf8Char_signed signed backslash _).trans (if_neg fun safe => safe.2 (.inr rfl))
      have found : quotedSpecial (platform.char b) = true := by
        rw [quotedSpecial_signed signed]
        exact decide_eq_true special
      exact quotedChar_escaped none_ ((char_backslash signed backslash).mpr rfl) found
  taken {text} some_ := by
    cases text with
    | nil => exact absurd rfl some_
    | cons b rest =>
      by_cases safe : b ≠ 0 ∧ ¬ Special b
      · have one : quotedChar ((b :: rest).map platform.char) = 1 := quotedChar_safe
          ((safeUtf8Char_signed signed b rest).trans (if_pos safe)) Nat.one_ne_zero
        rw [one]
        exact ⟨.plain safe.1 safe.2, by simp⟩
      · have ⟨c, text, same, special, two⟩ := quotedChar_two
          ((safeUtf8Char_signed signed b rest).trans (if_neg safe)) some_
        rw [two]
        cases rest with
        | nil => exact absurd (List.cons.inj same).2 (by simp)
        | cons d rest =>
          have ⟨slash, others⟩ := List.cons.inj same
          have ⟨head, _⟩ := List.cons.inj others
          rw [← head, quotedSpecial_signed signed] at special
          rw [(char_backslash signed b).mp slash]
          exact ⟨.escaped (of_decide_eq_true special), by simp⟩
  filled char := by cases char <;> simp

end Signed

/-! ## Unsigned characters -/

/-- A character where `char` is not signed. -/
inductive UnsignedChar : List Byte → Prop where
  /-- A safe character. -/
  | safe {b : Byte} (nul : b ≠ 0) (seven : b ≤ 0x7F) (plain : ¬ Special b) : UnsignedChar [b]
  /-- A sequence of two bytes. -/
  | two {a b : Byte} (low : 0xC0 ≤ a) (high : a ≤ 0xDF) (tail : Tail b) : UnsignedChar [a, b]
  /-- A sequence of three bytes, or the first three of what begins with a higher byte. -/
  | three {a b c : Byte} (low : 0xE0 ≤ a) (tail₁ : Tail b) (tail₂ : Tail c) : UnsignedChar [a, b, c]
  /-- An escaped character. -/
  | escaped {b : Byte} (special : Special b) : UnsignedChar [backslash, b]

section Unsigned

variable {platform : Platform} (unsigned : platform.charSigned = false)
include unsigned

theorem char_unsigned (b : Byte) : platform.char b = b.toNat := by
  simp [Platform.char, unsigned]

theorem safeChar_unsigned (b : Byte) :
    safeChar (platform.char b) = decide (b ≠ 0 ∧ b ≤ 0x7F ∧ ¬ Special b) := by
  rw [char_unsigned unsigned]
  revert b
  exact byte_of_nat (by decide +kernel)

theorem quotedSpecial_unsigned (b : Byte) :
    quotedSpecial (platform.char b) = decide (Special b) := by
  rw [char_unsigned unsigned]
  revert b
  exact byte_of_nat (by decide +kernel)

theorem char_slash (b : Byte) : platform.char b = 92 ↔ b = backslash := by
  rw [char_unsigned unsigned]
  revert b
  exact byte_of_nat (by decide +kernel)

theorem utf8_1_unsigned (b : Byte) : utf8_1 (platform.char b) = decide (Tail b) := by
  rw [char_unsigned unsigned]
  revert b
  exact byte_of_nat (by decide +kernel)

theorem utf8_2_unsigned (a b : Byte) :
    utf8_2 (platform.char a) (platform.char b) = decide (0xC0 ≤ a ∧ a ≤ 0xDF ∧ Tail b) := by
  have lead : (decide (0xC0 ≤ (a.toNat : Int)) && decide ((a.toNat : Int) ≤ 0xDF)) =
      decide (0xC0 ≤ a ∧ a ≤ 0xDF) := by
    revert a
    exact byte_of_nat (by decide +kernel)
  rw [utf8_2, utf8_1_unsigned unsigned, char_unsigned unsigned, lead]
  simp [Bool.and_assoc]

/-- The second byte is never above 0xEF where it continues a sequence. -/
theorem utf8_3_unsigned (a b c : Byte) :
    utf8_3 (platform.char a) (platform.char b) (platform.char c) =
      decide (0xE0 ≤ a ∧ Tail b ∧ Tail c) := by
  have lead : decide (0xE0 ≤ (a.toNat : Int)) = decide (0xE0 ≤ a) := by
    revert a
    exact byte_of_nat (by decide +kernel)
  have second : (decide ((b.toNat : Int) ≤ 0xEF) && decide (Tail b)) = decide (Tail b) := by
    revert b
    exact byte_of_nat (by decide +kernel)
  rw [utf8_3, utf8_1_unsigned unsigned, utf8_1_unsigned unsigned, char_unsigned unsigned,
    char_unsigned unsigned, lead, Bool.and_assoc (decide (0xE0 ≤ a)), second]
  simp [Bool.and_assoc]

/-- What begins a sequence of four bytes begins one of three. -/
theorem utf8_4_unsigned {a b c : Byte} (none_ : utf8_3 (platform.char a) (platform.char b)
    (platform.char c) = false) (d : Int) :
    utf8_4 (platform.char a) (platform.char b) (platform.char c) d = false := by
  have lead (a : Byte) (low : 0xF0 ≤ (a.toNat : Int)) : 0xE0 ≤ a := by
    rw [UInt8.le_iff_toNat_le]
    have size : UInt8.toNat 0xE0 = 0xE0 := rfl
    omega
  rw [utf8_3_unsigned unsigned] at none_
  by_contra some_
  simp only [Bool.not_eq_false, utf8_4, utf8_1_unsigned unsigned, Bool.and_eq_true,
    decide_eq_true_eq] at some_
  rw [char_unsigned unsigned] at some_
  exact of_decide_eq_false none_ ⟨lead a some_.1.1.1.1, some_.1.1.2, some_.1.2⟩

/-- What is counted at the start of a text, if anything. -/
theorem safeUtf8Char_unsigned (text : List Byte) :
    safeUtf8Char (text.map platform.char) = match text with
      | a :: b :: c :: _ =>
        if a ≠ 0 ∧ a ≤ 0x7F ∧ ¬ Special a then 1
        else if 0xC0 ≤ a ∧ a ≤ 0xDF ∧ Tail b then 2
        else if 0xE0 ≤ a ∧ Tail b ∧ Tail c then 3 else 0
      | [a, b] =>
        if a ≠ 0 ∧ a ≤ 0x7F ∧ ¬ Special a then 1
        else if 0xC0 ≤ a ∧ a ≤ 0xDF ∧ Tail b then 2 else 0
      | [a] => if a ≠ 0 ∧ a ≤ 0x7F ∧ ¬ Special a then 1 else 0
      | [] => 0 := by
  rcases text with _ | ⟨a, _ | ⟨b, _ | ⟨c, rest⟩⟩⟩
  · rfl
  · rw [List.map_cons, safeUtf8Char.eq_def]
    dsimp only
    rw [safeChar_unsigned unsigned]
    simp
  · rw [List.map_cons, List.map_cons, safeUtf8Char.eq_def]
    dsimp only
    rw [safeChar_unsigned unsigned, utf8_2_unsigned unsigned]
    simp
  · rw [List.map_cons, List.map_cons, List.map_cons, safeUtf8Char.eq_def]
    dsimp only
    rw [safeChar_unsigned unsigned, utf8_2_unsigned unsigned]
    by_cases three : 0xE0 ≤ a ∧ Tail b ∧ Tail c
    · simp [utf8_3_unsigned unsigned, three]
    · have none_ : utf8_3 (platform.char a) (platform.char b) (platform.char c) = false := by
        rw [utf8_3_unsigned unsigned]
        exact decide_eq_false three
      cases rest <;> simp [none_, three, utf8_4_unsigned unsigned none_]

end Unsigned

/-- The first byte tells the characters apart. -/
theorem lead_apart (a : Byte) : (0xC0 ≤ a → ¬ a ≤ 0x7F) ∧ (0xE0 ≤ a → ¬ a ≤ 0x7F ∧ ¬ a ≤ 0xDF) ∧
    (Special a → a ≤ 0x7F ∧ ¬ 0xC0 ≤ a ∧ ¬ 0xE0 ≤ a) ∧
    (Tail a → ¬ a ≤ 0x7F ∧ ¬ 0xC0 ≤ a ∧ ¬ 0xE0 ≤ a) := by
  revert a
  exact byte_of_nat (by decide +kernel)

section Unsigned

variable {platform : Platform} (unsigned : platform.charSigned = false)
include unsigned

/-- Where `char` is not signed, four bytes are never a character. -/
theorem measures_unsigned :
    Measures UnsignedChar fun text => quotedChar (text.map platform.char) where
  counted {c} char rest := by
    cases char with
    | @safe b nul seven plain =>
      refine quotedChar_safe ?_ Nat.one_ne_zero
      rw [safeUtf8Char_unsigned unsigned]
      rcases rest with _ | ⟨c, _ | ⟨d, rest⟩⟩ <;> simp [nul, seven, plain]
    | @two a b low high tail =>
      have above := (lead_apart a).1 low
      refine quotedChar_safe ?_ (Nat.succ_ne_zero 1)
      rw [safeUtf8Char_unsigned unsigned]
      cases rest <;> simp [above, low, high, tail]
    | @three a b c low tail₁ tail₂ =>
      have ⟨above, beyond⟩ := (lead_apart a).2.1 low
      refine quotedChar_safe ?_ (Nat.succ_ne_zero 2)
      rw [safeUtf8Char_unsigned unsigned]
      simp [above, beyond, low, tail₁, tail₂]
    | @escaped b special =>
      have slash : Special backslash := .inr rfl
      have none_ : safeUtf8Char ((backslash :: b :: rest).map platform.char) = 0 := by
        rw [safeUtf8Char_unsigned unsigned]
        have low : ¬ (0xC0 : Byte) ≤ backslash := by decide
        have low' : ¬ (0xE0 : Byte) ≤ backslash := by decide
        cases rest <;> simp [slash, low, low']
      have found : quotedSpecial (platform.char b) = true := by
        rw [quotedSpecial_unsigned unsigned]
        exact decide_eq_true special
      exact quotedChar_escaped none_ ((char_slash unsigned backslash).mpr rfl) found
  taken {text} some_ := by
    by_cases none_ : safeUtf8Char (text.map platform.char) = 0
    · have ⟨c, others, same, special, two⟩ := quotedChar_two none_ some_
      rw [two]
      rcases text with _ | ⟨b, _ | ⟨d, rest⟩⟩
      · cases same
      · exact absurd (List.cons.inj same).2 (by simp)
      · have ⟨slash, others⟩ := List.cons.inj same
        have ⟨head, _⟩ := List.cons.inj others
        rw [← head, quotedSpecial_unsigned unsigned] at special
        rw [(char_slash unsigned b).mp slash]
        exact ⟨.escaped (of_decide_eq_true special), by simp⟩
    · rw [quotedChar_safe rfl none_]
      rw [safeUtf8Char_unsigned unsigned] at none_ ⊢
      rcases text with _ | ⟨a, _ | ⟨b, _ | ⟨c, rest⟩⟩⟩
      · exact absurd rfl none_
      all_goals
        dsimp only at none_ ⊢
        by_cases safe : a ≠ 0 ∧ a ≤ 0x7F ∧ ¬ Special a
        · rw [if_pos safe]
          exact ⟨.safe safe.1 safe.2.1 safe.2.2, by simp⟩
        rw [if_neg safe] at none_ ⊢
      · exact absurd rfl none_
      all_goals
        by_cases two : 0xC0 ≤ a ∧ a ≤ 0xDF ∧ Tail b
        · rw [if_pos two]
          exact ⟨.two two.1 two.2.1 two.2.2, by simp⟩
        rw [if_neg two] at none_ ⊢
      · exact absurd rfl none_
      · by_cases three : 0xE0 ≤ a ∧ Tail b ∧ Tail c
        · rw [if_pos three]
          exact ⟨.three three.1 three.2.1 three.2.2, by simp⟩
        · exact absurd (if_neg three) none_
  filled char := by cases char <;> simp

end Unsigned

/-! ## The grammar and what is accepted -/

theorem Sequence.append {Char : List Byte → Prop} {front back : List Byte}
    (first : Sequence Char front) (second : Sequence Char back) : Sequence Char (front ++ back) := by
  induction first with
  | nil => exact second
  | cons char more ih =>
    rw [List.append_assoc]
    exact .cons char ih

/-- Characters that are sequences of others. -/
theorem Sequence.bind {Char Other : List Byte → Prop} {text : List Byte}
    (sequence : Sequence Char text) (each : ∀ c, (∀ b ∈ c, b ∈ text) → Char c → Sequence Other c) :
    Sequence Other text := by
  induction sequence with
  | nil => exact .nil
  | @cons c rest char more ih =>
    have first : Sequence Other c := each c (fun b => List.mem_append_left rest) char
    exact first.append (ih fun c inside => each c fun b member =>
      List.mem_append_right _ (inside b member))

/-- After a character the others follow. -/
theorem Measures.rest {Char : List Byte → Prop} {first : List Byte → Nat}
    (measures : Measures Char first) {c rest : List Byte} (char : Char c)
    (sequence : Sequence Char (c ++ rest)) : Sequence Char rest := by
  have counted := measures.counted char rest
  generalize whole : c ++ rest = text at sequence counted
  cases sequence with
  | nil => exact absurd (List.append_eq_nil_iff.mp whole).1 (measures.filled char)
  | @cons c' rest' char' more =>
    have same : c.length = c'.length := counted.symm.trans (measures.counted char' rest')
    rw [(List.append_inj whole same).2]
    exact more

/-- Bytes from 0x80 on stand for themselves. -/
theorem loose_high {text : List Byte} (high : ∀ b ∈ text, 0x80 ≤ b) : Sequence LooseChar text := by
  have plain (b : Byte) (large : 0x80 ≤ b) : b ≠ 0 ∧ ¬ Special b := by
    constructor
    · rintro rfl
      exact absurd large (by decide)
    · rintro (rfl | rfl) <;> exact absurd large (by decide)
  induction text with
  | nil => exact .nil
  | cons b text ih =>
    have ⟨here, later⟩ := List.forall_mem_cons.mp high
    have ⟨nul, special⟩ := plain b here
    exact .cons (.plain nul special) (ih later)

theorem LooseChar.one {c : List Byte} (char : LooseChar c) : Sequence LooseChar c := by
  rw [← List.append_nil c]
  exact .cons char .nil

/-- What begins a sequence is from 0x80 on. -/
theorem high_of_lead {a m : Byte} (low : m ≤ a) (lead : 0xC0 ≤ m) : 0x80 ≤ a :=
  UInt8.le_trans (UInt8.le_trans (by decide) lead) low

/-- A sequence of `QUOTED-CHAR`s is one where bytes from 0x80 on stand for themselves. -/
theorem loose_of_quoted {text : List Byte} (sequence : Sequence QuotedChar text) :
    Sequence LooseChar text := by
  refine sequence.bind fun c _ char => ?_
  cases char with
  | safe nul seven plain => exact (LooseChar.plain nul plain).one
  | two low high tail => exact loose_high (by simp [high_of_lead low (by decide), tail.1])
  | three low high tail₁ tail₂ => exact loose_high (by
    simp [high_of_lead low (by decide), tail₁.1, tail₂.1])
  | four low high tail₁ tail₂ tail₃ =>
    exact loose_high (by
      simp [high_of_lead low (by decide), tail₁.1, tail₂.1, tail₃.1])
  | escaped special => exact (LooseChar.escaped special).one

/-- So is a sequence of the characters that are found where `char` is not signed. -/
theorem loose_of_unsigned {text : List Byte} (sequence : Sequence UnsignedChar text) :
    Sequence LooseChar text := by
  refine sequence.bind fun c _ char => ?_
  cases char with
  | safe nul seven plain => exact (LooseChar.plain nul plain).one
  | two low high tail => exact loose_high (by simp [high_of_lead low (by decide), tail.1])
  | three low tail₁ tail₂ => exact loose_high (by
    simp [high_of_lead low (by decide), tail₁.1, tail₂.1])
  | escaped special => exact (LooseChar.escaped special).one

/-- Without sequences of four bytes every `QUOTED-CHAR` is found where `char` is not signed. -/
theorem unsigned_of_quoted {text : List Byte} (sequence : Sequence QuotedChar text)
    (low : ∀ b ∈ text, b < 0xF0) : Sequence UnsignedChar text := by
  refine sequence.bind fun c inside char => ?_
  have one {c : List Byte} (char : UnsignedChar c) : Sequence UnsignedChar c := by
    rw [← List.append_nil c]
    exact .cons char .nil
  cases char with
  | safe nul seven plain => exact one (.safe nul seven plain)
  | two low high tail => exact one (.two low high tail)
  | three low high tail₁ tail₂ => exact one (.three low tail₁ tail₂)
  | @four a b c d high _ _ _ _ =>
    have small := low a (inside a (List.mem_cons_self ..))
    exact absurd high (UInt8.not_le.mpr small)
  | escaped special => exact one (.escaped special)

/-- A sequence of four bytes is never found: what is left of it begins with a byte that continues
one. -/
theorem low_of_unsigned {text : List Byte} (sequence : Sequence QuotedChar text)
    (found : Sequence UnsignedChar text) : ∀ b ∈ text, b < 0xF0 := by
  have measures := @measures_unsigned { Platform.sample with charSigned := false } rfl
  have small {b n : Byte} (high : b ≤ n) (last : n < 0xF0) : b < 0xF0 :=
    UInt8.lt_of_le_of_lt high last
  induction sequence with
  | nil => exact nofun
  | @cons c rest char more ih =>
    have peel (same : UnsignedChar c) (low : ∀ b ∈ c, b < 0xF0) : ∀ b ∈ c ++ rest, b < 0xF0 :=
      List.forall_mem_append.mpr ⟨low, ih (measures.rest same found)⟩
    cases char with
    | safe nul seven plain =>
      exact peel (.safe nul seven plain) (by simp [small seven (by decide)])
    | two low high tail =>
      exact peel (.two low high tail) (by
        simp [small high (by decide), small tail.2 (by decide)])
    | three low high tail₁ tail₂ =>
      exact peel (.three low tail₁ tail₂) (by
        simp [small high (by decide), small tail₁.2 (by decide), small tail₂.2 (by decide)])
    | @four a b c d low high tail₁ tail₂ tail₃ =>
      have lead : 0xE0 ≤ a := UInt8.le_trans (by decide) low
      have left : Sequence UnsignedChar (d :: rest) :=
        measures.rest (.three lead tail₁ tail₂) found
      have ⟨seven, two, three⟩ := (lead_apart d).2.2.2 tail₃
      generalize whole : d :: rest = text at left
      cases left with
      | nil => cases whole
      | cons char' _ =>
        cases char' with
        | safe _ low _ => exact absurd ((List.cons.inj whole).1 ▸ low) seven
        | two low _ _ => exact absurd ((List.cons.inj whole).1 ▸ low) two
        | three low _ _ => exact absurd ((List.cons.inj whole).1 ▸ low) three
        | escaped _ =>
          rw [(List.cons.inj whole).1] at tail₃
          exact absurd tail₃ (by decide)
    | escaped special =>
      exact peel (.escaped special) (by
        rcases special with rfl | rfl <;> simp [dquote, backslash])

/-! ## The result -/

/-- A text that is accepted stands between quotes, and the limit counts them. -/
theorem acapStrnIsQuoted_framed (platform : Platform) (content : List Byte) :
    acapStrnIsQuoted platform (dquote :: (content ++ [dquote])) = true ↔
      content.length ≤ 1022 ∧ quotedChars (content.length + 2) (content.map platform.char) = true := by
  have inner : ((dquote :: (content ++ [dquote])).drop 1).dropLast = content := by simp
  have ends : (dquote :: (content ++ [dquote])).getLast? = some dquote := by
    simp [List.getLast?_cons]
  have long : (dquote :: (content ++ [dquote])).length = content.length + 2 := by simp
  rw [acapStrnIsQuoted, inner, ends, long]
  simp

/-- What is accepted stands between quotes. -/
theorem framed_of_accepted {platform : Platform} {buf : List Byte}
    (accepted : acapStrnIsQuoted platform buf = true) :
    ∃ content, buf = dquote :: (content ++ [dquote]) := by
  simp only [acapStrnIsQuoted, Bool.and_eq_true, decide_eq_true_eq] at accepted
  obtain ⟨⟨⟨⟨long, _⟩, head⟩, last⟩, _⟩ := accepted
  cases buf with
  | nil => cases head
  | cons b rest =>
    have filled : rest ≠ [] := fun none_ => by simp [none_] at long
    rw [List.getLast?_cons_of_ne_nil filled] at last
    obtain ⟨content, whole⟩ := List.getLast?_eq_some_iff.mp last
    exact ⟨content, by rw [whole, ← Option.some.inj head]⟩

/-- A text between quotes is accepted where `char` is signed. -/
theorem accepted_signed {platform : Platform} (signed : platform.charSigned = true)
    (content : List Byte) :
    acapStrnIsQuoted platform (dquote :: (content ++ [dquote])) = true ↔
      content.length ≤ 1022 ∧ Sequence LooseChar content := by
  rw [acapStrnIsQuoted_framed, (measures_signed signed).quotedChars_iff _ _ (by omega)]

/-- A text between quotes is accepted where `char` is not signed. -/
theorem accepted_unsigned {platform : Platform} (unsigned : platform.charSigned = false)
    (content : List Byte) :
    acapStrnIsQuoted platform (dquote :: (content ++ [dquote])) = true ↔
      content.length ≤ 1022 ∧ Sequence UnsignedChar content := by
  rw [acapStrnIsQuoted_framed, (measures_unsigned unsigned).quotedChars_iff _ _ (by omega)]

theorem quoted_framed (content : List Byte) : Quoted (dquote :: (content ++ [dquote])) ↔
    Sequence QuotedChar content ∧ content.length ≤ 1024 := by
  constructor
  · intro ⟨content', same, sequence, short⟩
    have ⟨_, rest⟩ := List.cons.inj same
    rw [List.append_cancel_right rest]
    exact ⟨sequence, short⟩
  · exact fun both => ⟨content, rfl, both⟩

/-- What stands between quotes is recognised rightly exactly where it is classified rightly. -/
theorem classified_iff (content : List Byte) :
    (∀ platform, acapStrnIsQuoted platform (dquote :: (content ++ [dquote])) = true ↔
      Quoted (dquote :: (content ++ [dquote]))) ↔ Classified content := by
  constructor
  · intro right
    have signed := right { Platform.sample with charSigned := true }
    have unsigned := right { Platform.sample with charSigned := false }
    rw [accepted_signed rfl, quoted_framed] at signed
    rw [accepted_unsigned rfl, quoted_framed] at unsigned
    refine ⟨fun sequence => ?_, fun other loose => ?_⟩
    · by_cases short : content.length ≤ 1024
      · have ⟨fits, found⟩ := unsigned.mpr ⟨sequence, short⟩
        exact .inl ⟨fits, low_of_unsigned sequence found⟩
      · exact .inr (by omega)
    · by_contra fits
      exact other (signed.mp ⟨by omega, loose⟩).1
  · intro classified platform
    rw [quoted_framed]
    by_cases sequence : Sequence QuotedChar content
    · have found : Sequence LooseChar content := loose_of_quoted sequence
      cases signed : platform.charSigned with
      | true =>
        rw [accepted_signed signed]
        rcases classified.quoted sequence with ⟨fits, _⟩ | long
        · exact ⟨fun _ => ⟨sequence, by omega⟩, fun _ => ⟨fits, found⟩⟩
        · exact ⟨fun accepted => absurd accepted.1 (by omega), fun both => absurd both.2 (by omega)⟩
      | false =>
        rw [accepted_unsigned signed]
        rcases classified.quoted sequence with ⟨fits, low⟩ | long
        · exact ⟨fun _ => ⟨sequence, by omega⟩, fun _ => ⟨fits, unsigned_of_quoted sequence low⟩⟩
        · exact ⟨fun accepted => absurd accepted.1 (by omega), fun both => absurd both.2 (by omega)⟩
    · have rejected (fits : content.length ≤ 1022) (loose : Sequence LooseChar content) : False :=
        absurd (classified.other sequence loose) (by omega)
      refine ⟨fun accepted => ?_, fun both => absurd both.1 sequence⟩
      cases signed : platform.charSigned with
      | true =>
        have ⟨fits, loose⟩ := (accepted_signed signed content).mp accepted
        exact (rejected fits loose).elim
      | false =>
        have ⟨fits, found⟩ := (accepted_unsigned signed content).mp accepted
        exact (rejected fits (loose_of_unsigned found)).elim

/-- A string is recognised rightly, whether `char` is signed or not, exactly where it does not stand
between quotes or what does is classified rightly. -/
theorem acapStrnIsQuoted_iff (buf : List Byte) :
    (∀ platform, acapStrnIsQuoted platform buf = true ↔ Quoted buf) ↔
      ∀ content, buf = dquote :: (content ++ [dquote]) → Classified content := by
  constructor
  · intro right content framed
    rw [framed] at right
    exact (classified_iff content).mp right
  · intro classified
    by_cases framed : ∃ content, buf = dquote :: (content ++ [dquote])
    · have ⟨content, same⟩ := framed
      rw [same]
      exact (classified_iff content).mpr (classified content same)
    · intro platform
      refine ⟨fun accepted => absurd (framed_of_accepted accepted) framed, fun quoted => ?_⟩
      have ⟨content, same, _⟩ := quoted
      exact absurd ⟨content, same⟩ framed

/-- A byte that is no UTF-8 is accepted where `char` is signed. -/
theorem acapStrnIsQuoted_stray :
    ¬ (acapStrnIsQuoted Platform.sample [dquote, 0xFF, dquote] = true ↔
      Quoted [dquote, 0xFF, dquote]) := by
  intro right
  have ⟨sequence, _⟩ := (quoted_framed [0xFF]).mp (right.mp (by decide))
  generalize whole : ([0xFF] : List Byte) = text at sequence
  cases sequence with
  | nil => cases whole
  | cons char more =>
    cases char with
    | safe _ seven _ => exact absurd ((List.cons.inj whole).1 ▸ seven) (by decide)
    | two _ _ _ => cases whole
    | three _ _ _ _ => cases whole
    | four _ _ _ _ _ => cases whole
    | escaped _ => cases whole

end Perdition
