import Perdition.Verif.FilterLoop

/-!
# Filters of the LDAP map

What is documented is that every `%s`, with digits or without, is replaced. The loop does so where
its flags are at rest and the block, resized before its end is moved, still holds that end.
-/
namespace Perdition

open Lib Lib.Block

/-! ## Directives -/

/-- The digits of a directive. -/
structure Directive where
  /-- The bytes between `%` and `s`. -/
  digits : List Byte
  /-- All of them are digits. -/
  numeric : ∀ d ∈ digits, isDigit d = true

namespace Directive

variable (directive : Directive)

/-- The directive in the filter. -/
def text : List Byte := percent :: directive.digits ++ [115]

/-- The width that it asks for. -/
def width : Nat := digitsValue 0 directive.digits

/-- The key as the directive asks for it. -/
def filled (key : List Byte) : List Byte :=
  List.replicate (directive.width - key.length) space ++ key

theorem filled_length (key : List Byte) :
    (directive.filled key).length = max key.length directive.width := by
  rw [filled, List.length_append, List.length_replicate]
  omega

end Directive

/-- The directive that these bytes end behind its percent sign, and what is behind it. -/
def directiveEnd (rest : List Byte) : Option (Directive × List Byte) :=
  match rest.dropWhile isDigit with
  | [] => none
  | c :: behind =>
    if c = 115 then some (⟨rest.takeWhile isDigit, fun _ member => List.mem_takeWhile_imp member⟩,
      behind)
    else none

/-- The directive that a text begins with, and what is behind it. -/
def directiveAt : List Byte → Option (Directive × List Byte)
  | [] => none
  | c :: rest => if c = percent then directiveEnd rest else none

theorem directiveAt_text {text behind : List Byte} {directive : Directive}
    (found : directiveAt text = some (directive, behind)) : text = directive.text ++ behind := by
  cases text with
  | nil => cases found
  | cons first rest =>
    have halves := List.takeWhile_append_dropWhile (p := isDigit) (l := rest)
    rw [directiveAt] at found
    split at found
    · rename_i sign
      unfold directiveEnd at found
      split at found
      · cases found
      · rename_i c tail left
        split at found
        · rename_i same
          cases found
          rw [left, same] at halves
          simp only [Directive.text, sign, List.cons_append, List.append_assoc]
          exact congrArg (percent :: ·) halves.symm
        · cases found
    · cases found

/-- A byte that no directive begins with, or a directive. -/
inductive FilterPart where
  /-- A byte that is kept. -/
  | text (b : Byte)
  /-- A directive that is replaced. -/
  | directive (asked : Directive)

namespace FilterPart

/-- The bytes of a part. -/
def source : FilterPart → List Byte
  | .text b => [b]
  | .directive asked => asked.text

/-- A part in the filter that is searched for. -/
def filled (key : List Byte) : FilterPart → List Byte
  | .text b => [b]
  | .directive asked => asked.filled key

end FilterPart

/-- The parts of a filter. -/
def filterParts : List Byte → List FilterPart
  | [] => []
  | c :: rest =>
    match _found : directiveAt (c :: rest) with
    | some (asked, behind) => .directive asked :: filterParts behind
    | none => .text c :: filterParts rest
termination_by text => text.length
decreasing_by
  · have whole := congrArg List.length (directiveAt_text _found)
    simp only [Directive.text, List.length_append, List.length_cons, List.length_nil] at whole ⊢
    omega
  · simp

theorem filterParts_directive {c : Byte} {rest behind : List Byte} {asked : Directive}
    (found : directiveAt (c :: rest) = some (asked, behind)) :
    filterParts (c :: rest) = .directive asked :: filterParts behind := by
  rw [filterParts]
  split
  · rename_i other behind' found'
    rw [found, Option.some.injEq, Prod.mk.injEq] at found'
    rw [found'.1, found'.2]
  · rename_i none_
    rw [found] at none_
    cases none_

theorem filterParts_text {c : Byte} {rest : List Byte} (none_ : directiveAt (c :: rest) = none) :
    filterParts (c :: rest) = .text c :: filterParts rest := by
  rw [filterParts]
  split
  · rename_i other behind' found
    rw [none_] at found
    cases found
  · rfl

/-- The parts are the filter. -/
theorem filterParts_source (text : List Byte) :
    (filterParts text).flatMap FilterPart.source = text := by
  induction text using filterParts.induct with
  | case1 => rw [filterParts, List.flatMap_nil]
  | case2 c rest asked behind found ih =>
    rw [filterParts_directive found, List.flatMap_cons, ih]
    exact (directiveAt_text found).symm
  | case3 c rest none_ ih =>
    rw [filterParts_text none_, List.flatMap_cons, ih]
    rfl

/-! ## The condition -/

/-- Every directive is met with the flags at rest. The flags are an odd number of percent signs just
before, and digits that have been met behind one. -/
def AtRest : Bool → Bool → List FilterPart → Prop
  | _, _, [] => True
  | sign, saved, .text b :: parts =>
    if b = percent then AtRest (!sign) saved parts
    else if sign && isDigit b then AtRest true true parts
    else AtRest false false parts
  | sign, saved, .directive _ :: parts => (sign = false ∧ saved = false) ∧ AtRest false false parts

/-- The lengths fit an `int`, and what is put in the place of a directive is at most one byte shorter
than it, unless the directive ends the filter. -/
def WidthsFit (keyLen : Nat) : Nat → List FilterPart → Prop
  | _, [] => True
  | len, .text _ :: parts => WidthsFit keyLen len parts
  | len, .directive asked :: parts =>
    (len + max keyLen asked.width ≤ intMax ∧
      (asked.text.length ≤ max keyLen asked.width + 1 ∨ parts = [])) ∧
      WidthsFit keyLen (len + max keyLen asked.width - asked.text.length) parts

/-! ## Directives in the loop -/

section Directives

variable (key : List Byte) {flags : FilterFlags}

namespace FilterFlags

theorem next_digit {d : Byte} (signed : flags.formatPercent = true) (digit : isDigit d = true) :
    (flags.next d).1.formatPercent = true ∧ (flags.next d).2 = [] := by
  have other : d ≠ percent := by
    rintro rfl
    exact absurd digit (by decide)
  cases flags with
  | idle => cases signed
  | sign =>
    rw [next, if_neg other, if_pos digit]
    exact ⟨rfl, rfl⟩
  | digits held odd =>
    have odd_ : odd = true := signed
    rw [next, if_neg other, if_pos (by rw [odd_, digit]; rfl)]
    exact ⟨rfl, rfl⟩

/-- Other bytes end what is remembered. -/
theorem next_drops {c : Byte} (other : c ≠ percent)
    (loose : ¬ (flags.formatPercent && isDigit c) = true) :
    flags.next c = (.idle, flags.text ++ [c]) := by
  cases flags with
  | idle => exact if_neg other
  | sign =>
    have plain : ¬ isDigit c = true := loose
    rw [next, if_neg other, if_neg plain]
    rfl
  | digits held odd =>
    rw [next, if_neg other]
    exact if_neg loose

/-- A percent sign turns `format_percent` over. -/
theorem next_percent : (flags.next percent).1.formatPercent = !flags.formatPercent := by
  cases flags <;> rfl

theorem next_percent_unsigned (unsigned : flags.formatPercent = false) :
    (flags.next percent).2 = [] := by
  cases flags with
  | idle => rfl
  | sign => cases unsigned
  | digits held odd => rfl

/-- The flags after a run of digits. -/
def after (flags : FilterFlags) (digits : List Byte) : FilterFlags :=
  digits.foldl (fun flags d => (flags.next d).1) flags

end FilterFlags

theorem filterRun_keeps {c : Byte} (front rest : List Byte)
    (other : ¬ (flags.formatPercent && c = 115) = true) :
    filterRun key flags front (c :: rest) =
      filterRun key (flags.next c).1 (front ++ (flags.next c).2) rest := by
  rw [filterRun, if_neg other]

/-- Digits behind a percent sign that counts are remembered. -/
theorem filterRun_digits (front rest : List Byte) {digits : List Byte}
    (numeric : ∀ d ∈ digits, isDigit d = true) :
    ∀ {flags : FilterFlags}, flags.formatPercent = true →
      filterRun key flags front (digits ++ rest) =
          filterRun key (flags.after digits) front rest ∧
        (flags.after digits).formatPercent = true ∧
        (flags.after digits).text = flags.text ++ digits := by
  induction digits with
  | nil =>
    intro flags signed
    exact ⟨rfl, signed, (List.append_nil _).symm⟩
  | cons d digits ih =>
    intro flags signed
    have digit := numeric d List.mem_cons_self
    have ⟨signed', moved⟩ := FilterFlags.next_digit signed digit
    have text := flags.next_text d
    rw [moved, List.nil_append] at text
    have other : ¬ (flags.formatPercent && d = 115) = true := by
      intro ends_
      have same : d = 115 := of_decide_eq_true (Bool.and_eq_true_iff.mp ends_).2
      rw [same] at digit
      exact absurd digit (by decide)
    have ⟨run, still, held⟩ := ih (fun d' member => numeric d' (List.mem_cons_of_mem d member))
      signed'
    refine ⟨?_, still, ?_⟩
    · rw [List.cons_append, filterRun_keeps key front _ other, moved, List.append_nil, run]
      rfl
    · rw [FilterFlags.after, List.foldl_cons]
      exact held.trans (by rw [text, List.append_assoc]; rfl)

/-- Digits and an `s` behind an even number of percent signs are kept. -/
theorem filterRun_unsigned (behind : List Byte) {digits : List Byte}
    (numeric : ∀ d ∈ digits, isDigit d = true) :
    ∀ {flags : FilterFlags} (front : List Byte), flags.formatPercent = false →
      filterRun key flags front (digits ++ 115 :: behind) =
        filterRun key .idle (front ++ flags.text ++ digits ++ [115]) behind := by
  induction digits with
  | nil =>
    intro flags front unsigned
    have kept := @FilterFlags.next_drops flags 115 (by decide)
      (by rw [unsigned]; exact Bool.false_ne_true)
    rw [List.nil_append, filterRun_keeps key front _ (by rw [unsigned]; exact Bool.false_ne_true),
      kept, List.append_nil, List.append_assoc]
  | cons d digits ih =>
    intro flags front unsigned
    have other : d ≠ percent := by
      rintro rfl
      exact absurd (numeric percent List.mem_cons_self) (by decide)
    have kept := @FilterFlags.next_drops flags _ other
      (by rw [unsigned]; exact Bool.false_ne_true)
    rw [List.cons_append, filterRun_keeps key front _ (by rw [unsigned]; exact Bool.false_ne_true),
      kept, ih (fun d' member => numeric d' (List.mem_cons_of_mem d member)) _ rfl]
    simp [FilterFlags.text]

variable (asked : Directive) (front behind : List Byte)

/-- A directive behind an odd number of percent signs is kept. -/
theorem filterRun_kept (signed : flags.formatPercent = true) :
    filterRun key flags front (asked.text ++ behind) =
      filterRun key .idle (front ++ flags.text ++ asked.text) behind := by
  have whole : asked.text ++ behind = percent :: (asked.digits ++ 115 :: behind) := by
    simp [Directive.text]
  have text := flags.next_text percent
  have turned : (flags.next percent).1.formatPercent = false := by
    rw [FilterFlags.next_percent, signed]
    rfl
  have place : front ++ (flags.next percent).2 ++ (flags.next percent).1.text ++ asked.digits ++
      [115] = front ++ flags.text ++ asked.text := by
    rw [List.append_assoc front, text, Directive.text]
    simp
  rw [whole, filterRun_keeps key front _ (by simp; intro _; decide),
    filterRun_unsigned key behind asked.numeric _ turned, place]

/-- Another directive is replaced, and with it the bytes that are remembered. -/
theorem filterRun_replaced (unsigned : flags.formatPercent = false) :
    filterRun key flags front (asked.text ++ behind) =
      let width := ((flags.next percent).1.after asked.digits).widens key.length behind
      if (front ++ flags.text ++ asked.text ++ behind).length + width ≤ intMax ∧
          (flags.text.length + asked.text.length ≤ width + 1 ∨ behind = []) then
        filterRun key .idle (front ++ (List.replicate (width - key.length) space ++ key)) behind
      else none := by
  have whole : asked.text ++ behind = percent :: (asked.digits ++ 115 :: behind) := by
    simp [Directive.text]
  have text := flags.next_text percent
  have moved := FilterFlags.next_percent_unsigned unsigned
  have turned : (flags.next percent).1.formatPercent = true := by
    rw [FilterFlags.next_percent, unsigned]
    rfl
  have ⟨run, still, held⟩ := filterRun_digits key front (115 :: behind) asked.numeric turned
  rw [moved, List.nil_append] at text
  rw [text] at held
  have size : ((flags.next percent).1.after asked.digits).text.length + 1 =
      flags.text.length + asked.text.length := by
    rw [held, Directive.text]
    simp only [List.length_append, List.length_cons, List.length_nil]
    omega
  have bytes_ : front ++ ((flags.next percent).1.after asked.digits).text ++ 115 :: behind =
      front ++ flags.text ++ asked.text ++ behind := by
    rw [held, Directive.text]
    simp
  rw [whole, filterRun_keeps key front _ (by simp; intro _; decide), moved, List.append_nil, run,
    filterRun, still, if_pos (by decide), bytes_, size]

end Directives

/-! ## What is counted -/

/-- The part is a directive. -/
def FilterPart.isDirective : FilterPart → Bool
  | .text _ => false
  | .directive _ => true

/-- A byte that begins or ends every directive occurs once in each. -/
theorem Directive.count_text {b : Byte} (framing : b = percent ∨ b = 115) (asked : Directive) :
    asked.text.count b = 1 := by
  have none_ : asked.digits.count b = 0 := by
    rw [List.count_eq_zero]
    intro member
    have digit := asked.numeric b member
    rcases framing with same | same
    · rw [same] at digit
      exact absurd digit (by decide)
    · rw [same] at digit
      exact absurd digit (by decide)
  rw [Directive.text, List.count_append, List.count_cons, none_]
  rcases framing with same | same
  · rw [same]
    rfl
  · rw [same]
    rfl

section Counts

variable {key : List Byte} {b : Byte}

theorem count_padded (framing : b = percent ∨ b = 115) (absent : b ∉ key) (n : Nat) :
    (List.replicate n space ++ key).count b = 0 := by
  rw [List.count_eq_zero]
  intro member
  rcases List.mem_append.mp member with pad | text
  · have same := List.eq_of_mem_replicate pad
    rcases framing with sign | sign
    · rw [sign] at same
      exact absurd same (by decide)
    · rw [sign] at same
      exact absurd same (by decide)
  · exact absent text

/-- It is gone as often as there are directives. -/
theorem count_filled (framing : b = percent ∨ b = 115) (absent : b ∉ key)
    (parts : List FilterPart) :
    (parts.flatMap (FilterPart.filled key)).count b + parts.countP FilterPart.isDirective =
      (parts.flatMap FilterPart.source).count b := by
  induction parts with
  | nil => rfl
  | cons part parts ih =>
    rw [List.flatMap_cons, List.flatMap_cons, List.count_append, List.count_append, ← ih,
      List.countP_cons]
    cases part with
    | text c =>
      change ([c] : List Byte).count b + _ + (_ + 0) = ([c] : List Byte).count b + (_ + _)
      omega
    | directive asked =>
      have padded := count_padded framing absent (asked.width - key.length)
      have whole := asked.count_text framing
      change (asked.filled key).count b + _ + (_ + 1) = asked.text.count b + (_ + _)
      rw [Directive.filled, padded, whole]
      omega

/-- The flags have no directive behind them that they would end. -/
def FilterFlags.Apart (flags : FilterFlags) (text : List Byte) : Prop :=
  (flags.formatPercent = true → directiveEnd text = none) ∧ 115 ∉ flags.text

theorem FilterFlags.idle_apart {text : List Byte} : FilterFlags.idle.Apart text :=
  ⟨nofun, List.not_mem_nil⟩

variable {flags : FilterFlags}

/-- A digit does not change which directive ends. -/
theorem directiveEnd_digit {d : Byte} (digit : isDigit d = true) {rest : List Byte}
    (none_ : directiveEnd (d :: rest) = none) : directiveEnd rest = none := by
  unfold directiveEnd at none_ ⊢
  rw [List.dropWhile_cons_of_pos digit] at none_
  split at none_
  · rfl
  · split at none_
    · cases none_
    · rename_i other
      exact if_neg other

theorem FilterFlags.Apart.next {c : Byte} {rest : List Byte} (apart : flags.Apart (c :: rest))
    (none_ : directiveAt (c :: rest) = none) :
    ¬ (flags.formatPercent && c = 115) = true ∧ (flags.next c).1.Apart rest := by
  have other : ¬ (flags.formatPercent && c = 115) = true := by
    intro ends_
    have ⟨signed, same⟩ := Bool.and_eq_true_iff.mp ends_
    have stops := apart.1 signed
    rw [of_decide_eq_true same] at stops
    cases stops
  refine ⟨other, ?_⟩
  have text := flags.next_text c
  have clean : c ≠ 115 → 115 ∉ (flags.next c).1.text := by
    intro apart_ member
    have more : 115 ∈ flags.text ++ [c] := text ▸ List.mem_append_right _ member
    rcases List.mem_append.mp more with early | late
    · exact apart.2 early
    · exact apart_ (List.mem_singleton.mp late).symm
  by_cases sign : c = percent
  · refine ⟨fun _ => ?_, clean (by rw [sign]; decide)⟩
    rwa [directiveAt, if_pos sign] at none_
  · by_cases digit : (flags.formatPercent && isDigit c) = true
    · have ⟨signed, digit_⟩ := Bool.and_eq_true_iff.mp digit
      refine ⟨fun _ => directiveEnd_digit digit_ (apart.1 signed), clean ?_⟩
      rintro rfl
      exact absurd digit_ (by decide)
    · rw [FilterFlags.next_drops sign digit]
      exact ⟨nofun, List.not_mem_nil⟩

/-- The flags that are at rest are those of the loop. -/
theorem atRest_next {c : Byte} {parts : List FilterPart} :
    AtRest flags.formatPercent flags.saved (.text c :: parts) ↔
      AtRest (flags.next c).1.formatPercent (flags.next c).1.saved parts := by
  rw [AtRest]
  by_cases sign : c = percent
  · rw [if_pos sign, sign]
    cases flags <;> rfl
  · rw [if_neg sign]
    by_cases digit : (flags.formatPercent && isDigit c) = true
    · have ⟨signed, digit_⟩ := Bool.and_eq_true_iff.mp digit
      have kept := (FilterFlags.next_digit signed digit_).1
      have saved : (flags.next c).1.saved = true := by
        cases flags with
        | idle => cases signed
        | sign =>
          rw [FilterFlags.next, if_neg sign, if_pos digit_]
          rfl
        | digits held odd =>
          have both : (odd && isDigit c) = true := digit
          rw [FilterFlags.next, if_neg sign, if_pos both]
          rfl
      rw [if_pos digit, kept, saved]
    · rw [if_neg digit, FilterFlags.next_drops sign digit]
      rfl

/-- A directive is met at rest only with nothing remembered. -/
theorem AtRest.idle {asked : Directive} {parts : List FilterPart}
    (rests : AtRest flags.formatPercent flags.saved (.directive asked :: parts)) :
    flags = .idle := by
  have ⟨⟨unsigned, unsaved⟩, _⟩ := rests
  cases flags with
  | idle => rfl
  | sign => cases unsigned
  | digits held odd => cases unsaved

end Counts

/-! ## When every directive is replaced -/

section Replacements

variable {key : List Byte}

/-- As many bytes `s` are gone as directives are replaced, and then no more percent signs only where
the flags were at rest. -/
theorem filterRun_counts (noEnd : 115 ∉ key) (noSign : percent ∉ key) {final : List Byte}
    (text : List Byte) : ∀ {flags : FilterFlags} {front : List Byte}, flags.Apart text →
      filterRun key flags front text = some final →
      ∃ replaced ≤ (filterParts text).countP FilterPart.isDirective,
        final.count 115 + replaced = (front ++ flags.text ++ text).count 115 ∧
        final.count percent + replaced ≤ (front ++ flags.text ++ text).count percent ∧
        (replaced = (filterParts text).countP FilterPart.isDirective →
          final.count percent + replaced = (front ++ flags.text ++ text).count percent →
          AtRest flags.formatPercent flags.saved (filterParts text)) := by
  induction text using filterParts.induct with
  | case1 =>
    intro flags front _ run
    rw [filterRun, Option.some.injEq] at run
    subst run
    rw [filterParts]
    refine ⟨0, Nat.zero_le _, ?_, ?_, fun _ _ => trivial⟩
    · rw [List.append_nil, Nat.add_zero]
    · rw [List.append_nil, Nat.add_zero]
  | case2 c rest asked behind found ih =>
    intro flags front apart run
    have whole := directiveAt_text found
    rw [filterParts_directive found, List.countP_cons_of_pos rfl]
    rw [whole] at run ⊢
    have counts (b : Byte) : (front ++ flags.text ++ (asked.text ++ behind)).count b =
        front.count b + flags.text.count b + asked.text.count b + behind.count b := by
      simp only [List.count_append]
      omega
    rw [counts, counts, asked.count_text (.inr rfl), asked.count_text (.inl rfl)]
    have clean := List.count_eq_zero.mpr apart.2
    have idle : FilterFlags.idle.Apart behind := FilterFlags.idle_apart
    have blank : FilterFlags.idle.text = [] := rfl
    cases signed : flags.formatPercent with
    | true =>
      rw [filterRun_kept key asked front behind signed] at run
      obtain ⟨replaced, few, ends_, signs, _⟩ := ih idle run
      simp only [blank, List.append_nil, List.count_append,
        asked.count_text (.inr rfl), asked.count_text (.inl rfl)] at ends_ signs
      refine ⟨replaced, by omega, by omega, by omega, ?_⟩
      intro all
      omega
    | false =>
      rw [filterRun_replaced key asked front behind signed] at run
      dsimp only at run
      split at run
      · obtain ⟨replaced, few, ends_, signs, rest_⟩ := ih idle run
        simp only [blank, List.append_nil, List.count_append] at ends_ signs rest_
        have pad (b : Byte) (framing : b = percent ∨ b = 115) (absent : b ∉ key) (n : Nat) :=
          count_padded framing absent n
        simp only [List.count_append] at pad
        rw [pad 115 (.inr rfl) noEnd] at ends_
        rw [pad percent (.inl rfl) noSign] at signs rest_
        refine ⟨replaced + 1, by omega, by omega, by omega, ?_⟩
        intro all same
        have none_ : flags.text.count percent = 0 := by omega
        have resting : flags = .idle := by
          cases flags with
          | idle => rfl
          | sign => cases none_
          | digits held odd =>
            rw [FilterFlags.text, List.count_cons_self] at none_
            cases none_
        have later := rest_ (by omega) (by omega)
        rw [resting]
        exact ⟨⟨rfl, rfl⟩, later⟩
      · cases run
  | case3 c rest none_ ih =>
    intro flags front apart run
    obtain ⟨other, apart'⟩ := apart.next none_
    have text := flags.next_text c
    rw [filterRun_keeps key front rest other] at run
    have bytes_ : front ++ (flags.next c).2 ++ (flags.next c).1.text ++ rest =
        front ++ flags.text ++ c :: rest := by
      rw [List.append_assoc front, text]
      simp
    have found := ih apart' run
    rw [filterParts_text none_, List.countP_cons_of_neg Bool.false_ne_true, atRest_next]
    rwa [bytes_] at found

end Replacements

/-! ## Widths -/

/-- A width as `atoi` reads it. -/
def atoiWidth (n : Nat) : Int := Int.bmod (min (2 ^ 63 - 1) n) (2 ^ 32)

/-- `format_width` for a directive of this width. -/
def readWidth (keyLen n : Nat) : Nat := if atoiWidth n < keyLen then keyLen else (atoiWidth n).toNat

theorem atoiWidth_small {n : Nat} (small : n ≤ intMax) : atoiWidth n = n := by
  have bound : n ≤ 2 ^ 31 - 1 := small
  have least : min (2 ^ 63 - 1 : Int) n = n := by omega
  rw [atoiWidth, least]
  apply Int.bmod_eq_of_le <;> omega

theorem atoiWidth_le (n : Nat) : atoiWidth n ≤ intMax := by
  have below : atoiWidth n < (2 ^ 32 + 1) / 2 := Int.bmod_lt (by decide)
  have top : (intMax : Int) = 2 ^ 31 - 1 := rfl
  omega

theorem readWidth_small (keyLen : Nat) {n : Nat} (small : n ≤ intMax) :
    readWidth keyLen n = max keyLen n := by
  rw [readWidth, atoiWidth_small small]
  split <;> omega

/-- No width is read as a larger one. -/
theorem readWidth_le (keyLen n : Nat) : readWidth keyLen n ≤ max keyLen n := by
  by_cases small : n ≤ intMax
  · exact (readWidth_small keyLen small).le
  · have bound := atoiWidth_le n
    rw [readWidth]
    split <;> omega

theorem atoi_digits {digits rest : List Byte} (filled : digits ≠ [])
    (numeric : ∀ d ∈ digits, isDigit d = true) (ends_ : ∀ c ∈ rest.head?, isDigit c = false)
    (noNul : 0 ∉ digits ++ rest) :
    atoi (cstr (digits ++ rest)) = atoiWidth (digitsValue 0 digits) := by
  rw [atoi, cstr_content noNul, strtoulParts_digits filled numeric ends_]
  rfl

namespace FilterFlags

theorem digits_after (held more : List Byte) (numeric : ∀ d ∈ more, isDigit d = true) :
    (digits held true).after more = digits (held ++ more) true := by
  induction more generalizing held with
  | nil => rw [List.append_nil]; rfl
  | cons d more ih =>
    have digit := numeric d List.mem_cons_self
    have other : d ≠ percent := by
      rintro rfl
      exact absurd digit (by decide)
    have step : (digits held true).next d = (digits (held ++ [d]) true, []) := by
      rw [next, if_neg other, if_pos (by rw [digit]; rfl)]
    have rest := ih (held ++ [d]) fun d' member => numeric d' (List.mem_cons_of_mem d member)
    rw [List.append_assoc] at rest
    rw [after, List.foldl_cons, step]
    exact rest

/-- The width of a directive that is met at rest. -/
theorem widens_directive (keyLen : Nat) (asked : Directive) {behind : List Byte}
    (noNul : 0 ∉ asked.digits ++ 115 :: behind) :
    (sign.after asked.digits).widens keyLen behind = readWidth keyLen asked.width := by
  have asks : (sign.after asked.digits).asks behind = atoiWidth asked.width := by
    have read := @atoi_digits asked.digits (115 :: behind)
    rw [Directive.width]
    cases all : asked.digits with
    | nil => rfl
    | cons d more =>
      have numeric := asked.numeric
      rw [all] at read numeric noNul
      have digit := numeric d List.mem_cons_self
      have first := @next_digit sign _ rfl digit
      have other : d ≠ percent := by
        rintro rfl
        exact absurd digit (by decide)
      have step : (sign.next d).1 = digits [d] true := by
        rw [next, if_neg other, if_pos digit]
      have held := digits_after [d] more fun d' member => numeric d' (List.mem_cons_of_mem d member)
      rw [after, List.foldl_cons, step]
      change ((digits [d] true).after more).asks behind = _
      rw [held]
      refine read (List.cons_ne_nil d more) numeric ?_ noNul
      rintro c ⟨⟩
      decide
  rw [widens, asks]
  rfl

end FilterFlags

section Widths

variable {key : List Byte}

/-- A directive that is met at rest. -/
theorem filterRun_directive (asked : Directive) (front : List Byte) {behind : List Byte}
    (noNul : 0 ∉ asked.text ++ behind) :
    filterRun key .idle front (asked.text ++ behind) =
      if (front ++ asked.text ++ behind).length + readWidth key.length asked.width ≤ intMax ∧
          (asked.text.length ≤ readWidth key.length asked.width + 1 ∨ behind = []) then
        filterRun key .idle (front ++
          (List.replicate (readWidth key.length asked.width - key.length) space ++ key)) behind
      else none := by
  have clean : 0 ∉ asked.digits ++ 115 :: behind := by
    intro nul
    apply noNul
    rw [Directive.text]
    simpa using Or.inr nul
  have width := FilterFlags.widens_directive key.length asked clean
  have sign : (FilterFlags.idle.next percent).1 = .sign := rfl
  have blank : FilterFlags.idle.text = [] := rfl
  rw [filterRun_replaced key asked front behind rfl]
  dsimp only
  rw [sign, width, blank, List.append_nil, List.length_nil, Nat.zero_add]

theorem filterParts_nil {text : List Byte} : filterParts text = [] ↔ text = [] := by
  constructor
  · intro none_
    have source := filterParts_source text
    rw [none_] at source
    exact source.symm
  · rintro rfl
    rw [filterParts]

/-- What is behind the text of a directive is kept. -/
theorem front_next (flags : FilterFlags) (front : List Byte) (c : Byte) :
    front ++ (flags.next c).2 ++ (flags.next c).1.text = front ++ flags.text ++ [c] := by
  rw [List.append_assoc front, flags.next_text c, List.append_assoc]

/-- At rest a filter becomes no longer than it should, and as long only where the lengths fit. -/
theorem filterRun_length {final : List Byte} (text : List Byte) :
    ∀ {flags : FilterFlags} {front : List Byte}, flags.Apart text → 0 ∉ text →
      AtRest flags.formatPercent flags.saved (filterParts text) →
      filterRun key flags front text = some final →
      final.length ≤ (front ++ flags.text).length +
          ((filterParts text).flatMap (FilterPart.filled key)).length ∧
        (final.length = (front ++ flags.text).length +
            ((filterParts text).flatMap (FilterPart.filled key)).length →
          WidthsFit key.length (front ++ flags.text ++ text).length (filterParts text)) := by
  induction text using filterParts.induct with
  | case1 =>
    intro flags front _ _ _ run
    rw [filterRun, Option.some.injEq] at run
    subst run
    rw [filterParts]
    exact ⟨Nat.le_add_right _ _, fun _ => trivial⟩
  | case2 c rest asked behind found ih =>
    intro flags front _ noNul rests run
    have whole := directiveAt_text found
    rw [filterParts_directive found] at rests ⊢
    have idle := AtRest.idle rests
    subst idle
    rw [whole] at noNul run ⊢
    rw [filterRun_directive asked front noNul] at run
    split at run
    · rename_i fits
      have clean : 0 ∉ behind := fun nul => noNul (List.mem_append_right _ nul)
      obtain ⟨short, exact_⟩ := ih FilterFlags.idle_apart clean rests.2 run
      have narrow := readWidth_le key.length asked.width
      have atLeast : key.length ≤ readWidth key.length asked.width := by
        rw [readWidth]
        split <;> omega
      have padded := asked.filled_length key
      have pad : (List.replicate (readWidth key.length asked.width - key.length) space ++
          key).length = readWidth key.length asked.width := by
        rw [List.length_append, List.length_replicate]
        omega
      have blank : FilterFlags.idle.text = [] := rfl
      rw [blank, List.append_nil, List.length_append, pad] at short exact_
      rw [blank, List.append_nil, List.flatMap_cons, List.length_append, FilterPart.filled, padded]
      refine ⟨by omega, fun same => ?_⟩
      have width : readWidth key.length asked.width = max key.length asked.width := by omega
      have later := exact_ (by omega)
      rw [width] at fits later
      refine ⟨⟨?_, ?_⟩, ?_⟩
      · rw [← List.append_assoc]
        exact fits.1
      · rw [filterParts_nil]
        exact fits.2
      · have lengths : (front ++ (asked.text ++ behind)).length + max key.length asked.width -
            asked.text.length = (front ++ (List.replicate (max key.length asked.width - key.length)
              space ++ key) ++ behind).length := by
          simp only [List.length_append, List.length_replicate]
          omega
        rw [lengths]
        exact later
    · cases run
  | case3 c rest none_ ih =>
    intro flags front apart noNul rests run
    obtain ⟨other, apart'⟩ := apart.next none_
    rw [filterRun_keeps key front rest other] at run
    rw [filterParts_text none_] at rests ⊢
    obtain ⟨short, exact_⟩ := ih apart' (fun nul => noNul (List.mem_cons_of_mem c nul))
      (atRest_next.mp rests) run
    have before : (front ++ flags.text ++ [c]).length = (front ++ flags.text).length + 1 :=
      List.length_append
    have behind : ([c] ++ (filterParts rest).flatMap (FilterPart.filled key)).length =
        ((filterParts rest).flatMap (FilterPart.filled key)).length + 1 := List.length_cons
    rw [front_next, before] at short exact_
    have whole : front ++ flags.text ++ [c] ++ rest = front ++ flags.text ++ c :: rest := by simp
    rw [whole] at exact_
    rw [List.flatMap_cons, FilterPart.filled, behind]
    exact ⟨by omega, fun same => exact_ (by omega)⟩

/-- At rest every directive is replaced where the lengths fit. -/
theorem filterRun_filled (text : List Byte) :
    ∀ {flags : FilterFlags} {front : List Byte}, flags.Apart text → 0 ∉ text →
      AtRest flags.formatPercent flags.saved (filterParts text) →
      WidthsFit key.length (front ++ flags.text ++ text).length (filterParts text) →
      filterRun key flags front text =
        some (front ++ flags.text ++ (filterParts text).flatMap (FilterPart.filled key)) := by
  induction text using filterParts.induct with
  | case1 =>
    intro flags front _ _ _ _
    rw [filterRun, filterParts, List.flatMap_nil, List.append_nil]
  | case2 c rest asked behind found ih =>
    intro flags front _ noNul rests fits
    have whole := directiveAt_text found
    rw [filterParts_directive found] at rests fits ⊢
    have idle := AtRest.idle rests
    subst idle
    have blank : FilterFlags.idle.text = [] := rfl
    rw [whole] at noNul fits ⊢
    rw [blank, List.append_nil] at fits ⊢
    obtain ⟨⟨small, narrow⟩, later⟩ := fits
    rw [filterParts_nil] at narrow
    have width := readWidth_small key.length (n := asked.width) (by omega)
    have clean : 0 ∉ behind := fun nul => noNul (List.mem_append_right _ nul)
    have pad : asked.width - key.length = max key.length asked.width - key.length := by omega
    have lengths : (front ++ (asked.text ++ behind)).length + max key.length asked.width -
        asked.text.length = (front ++ (List.replicate (max key.length asked.width - key.length)
          space ++ key) ++ FilterFlags.idle.text ++ behind).length := by
      simp only [blank, List.append_nil, List.length_append, List.length_replicate]
      omega
    rw [lengths] at later
    have done := ih FilterFlags.idle_apart clean rests.2 later
    rw [filterRun_directive asked front noNul, width, if_pos ⟨by rwa [List.append_assoc], narrow⟩,
      done, blank, List.append_nil, List.flatMap_cons, FilterPart.filled, Directive.filled, pad]
    simp only [List.append_assoc]
  | case3 c rest none_ ih =>
    intro flags front apart noNul rests fits
    obtain ⟨other, apart'⟩ := apart.next none_
    have whole : front ++ flags.text ++ c :: rest = front ++ flags.text ++ [c] ++ rest := by simp
    rw [filterParts_text none_] at rests fits ⊢
    have done := @ih _ (front ++ (flags.next c).2) apart'
      (fun nul => noNul (List.mem_cons_of_mem c nul)) (atRest_next.mp rests) (by
        rw [front_next, ← whole]
        exact fits)
    rw [filterRun_keeps key front rest other, done, front_next, List.flatMap_cons, FilterPart.filled]
    simp

/-- No NUL comes into the text. -/
theorem filterRun_noNul (clean : 0 ∉ key) {final : List Byte} (rest : List Byte) :
    ∀ {flags : FilterFlags} {front : List Byte}, 0 ∉ front ++ flags.text ++ rest →
      filterRun key flags front rest = some final → 0 ∉ final := by
  induction rest with
  | nil =>
    intro flags front noNul run
    rw [filterRun, Option.some.injEq] at run
    rwa [List.append_nil, run] at noNul
  | cons c rest ih =>
    intro flags front noNul run
    rw [filterRun] at run
    split at run
    · dsimp only at run
      split at run
      · refine ih (fun nul => ?_) run
        simp only [FilterFlags.text, List.append_nil, List.mem_append] at nul noNul
        rcases nul with (early | pad | text) | late
        · exact noNul (.inl (.inl early))
        · exact absurd (List.eq_of_mem_replicate pad) (by decide)
        · exact clean text
        · exact noNul (.inr (List.mem_cons_of_mem c late))
      · cases run
    · refine ih ?_ run
      rwa [front_next, List.append_assoc, List.singleton_append]

end Widths

/-! ## The filter that is searched for -/

section Filters

variable (garbage : Nat → Byte) (filter : CString)

/-- The filter with every directive replaced. -/
def filterFilled (key : CString) : CString where
  content := (filterParts filter.content).flatMap (FilterPart.filled key.content)
  noNul := by
    intro nul
    have ⟨part, member, inside⟩ := List.mem_flatMap.mp nul
    cases part with
    | text b =>
      apply filter.noNul
      rw [← filterParts_source filter.content]
      exact List.mem_flatMap.mpr ⟨_, member, inside⟩
    | directive asked =>
      rcases List.mem_append.mp inside with pad | text
      · exact absurd (List.eq_of_mem_replicate pad) (by decide)
      · exact key.noNul text

/-- The filter for a key is the one with every directive replaced, and is built within its block. -/
def FilterBuilt (key : CString) : Prop :=
  ∃ block, pldapGetFilterStr garbage key filter = some block ∧
    stringIn block 0 = some (filterFilled filter key)

variable {filter} {key : CString}

/-- The block is the text that the loop leaves, and a NUL. -/
theorem pldapGetFilterStr_run (keyFits : key.length ≤ intMax) (filterFits : filter.length ≤ intMax) :
    pldapGetFilterStr garbage key filter =
      (filterRun key.content .idle [] filter.content).map (· ++ [0]) := by
  have start : (⟨filter.content ++ [0], filter.length, 0, false, 0⟩ : FilterVars) =
      FilterFlags.idle.vars [] filter.content := rfl
  rw [pldapGetFilterStr, intValue, if_pos keyFits, Option.bind_eq_bind, Option.bind_some, intValue,
    if_pos filterFits, Option.bind_some, start]
  exact filterRounds_run garbage key filter.content .idle [] _ (Nat.lt_succ_self _) filter.noNul

theorem FilterBuilt.run (built : FilterBuilt garbage filter key) :
    key.length ≤ intMax ∧ filter.length ≤ intMax ∧
      filterRun key.content .idle [] filter.content = some (filterFilled filter key).content := by
  obtain ⟨block, stored, string⟩ := built
  obtain ⟨n, keyFits, later⟩ := Option.bind_eq_some_iff.mp stored
  obtain ⟨m, filterFits, _⟩ := Option.bind_eq_some_iff.mp later
  have keyFits : key.length ≤ intMax := by
    by_contra large
    rw [intValue, if_neg large] at keyFits
    cases keyFits
  have filterFits : filter.length ≤ intMax := by
    by_contra large
    rw [intValue, if_neg large] at filterFits
    cases filterFits
  refine ⟨keyFits, filterFits, ?_⟩
  rw [pldapGetFilterStr_run garbage keyFits filterFits] at stored
  obtain ⟨text, run, whole⟩ := Option.map_eq_some_iff.mp stored
  have noNul : 0 ∉ text := filterRun_noNul key.noNul filter.content filter.noNul run
  have start := stringIn_text [] ⟨text, noNul⟩ []
  rw [List.nil_append, List.length_nil, Int.natCast_zero, whole, string, Option.some.injEq] at start
  rw [run, start]

/-- The filter and the lengths that `pldap_get_filter_str` is made for. -/
def FilterFits (keyLen : Nat) (filter : CString) : Prop :=
  keyLen ≤ intMax ∧ filter.length ≤ intMax ∧
    AtRest false false (filterParts filter.content) ∧
    WidthsFit keyLen filter.length (filterParts filter.content)

theorem FilterFits.built (fits : FilterFits key.length filter) : FilterBuilt garbage filter key := by
  have ⟨keyFits, filterFits, rests, widths⟩ := fits
  have run := @filterRun_filled key.content filter.content .idle []
    FilterFlags.idle_apart filter.noNul rests widths
  have string := stringIn_text [] (filterFilled filter key) []
  rw [List.nil_append, List.length_nil, Int.natCast_zero] at string
  refine ⟨(filterFilled filter key).content ++ [0], ?_, string⟩
  rw [pldapGetFilterStr_run garbage keyFits filterFits, run]
  rfl

/-- A key without the bytes of a directive shows which of them are replaced. -/
theorem FilterBuilt.fits (noEnd : 115 ∉ key.content) (noSign : percent ∉ key.content)
    (built : FilterBuilt garbage filter key) : FilterFits key.length filter := by
  have ⟨keyFits, filterFits, run⟩ := built.run garbage
  have ⟨replaced, few, ends_, signs, rests⟩ :=
    filterRun_counts noEnd noSign filter.content FilterFlags.idle_apart run
  have source := filterParts_source filter.content
  have filledEnds := count_filled (.inr rfl) noEnd (filterParts filter.content)
  have filledSigns := count_filled (.inl rfl) noSign (filterParts filter.content)
  have blank : FilterFlags.idle.text = [] := rfl
  rw [blank, List.nil_append, List.nil_append] at ends_ signs rests
  rw [source] at filledEnds filledSigns
  have all : replaced = (filterParts filter.content).countP FilterPart.isDirective := by
    change ((filterParts filter.content).flatMap (FilterPart.filled key.content)).count 115 + _ = _
      at ends_
    omega
  have atRest := rests all (by rw [all]; exact filledSigns)
  have ⟨_, widths⟩ := filterRun_length filter.content FilterFlags.idle_apart filter.noNul atRest run
  refine ⟨keyFits, filterFits, atRest, widths ?_⟩
  rw [blank, List.append_nil, List.length_nil, Nat.zero_add]
  rfl

end Filters

/-- What the substitution needs, for the keys of a length: flags that are at rest at every directive,
and lengths that fit. -/
theorem pldapGetFilterStr_iff (garbage : Nat → Byte) (filter : CString) (keyLen : Nat) :
    (∀ key : CString, key.length = keyLen → FilterBuilt garbage filter key) ↔
      FilterFits keyLen filter := by
  constructor
  · intro built
    let key : CString := ⟨List.replicate keyLen 97, fun nul =>
      absurd (List.eq_of_mem_replicate nul) (by decide)⟩
    have long : key.length = keyLen := List.length_replicate
    have other (b : Byte) (apart : b ≠ 97) : b ∉ key.content := fun member =>
      apart (List.eq_of_mem_replicate member)
    rw [← long]
    exact (built key long).fits garbage (other 115 (by decide)) (other percent (by decide))
  · rintro fits key rfl
    exact fits.built garbage

/-- An empty key shortens the block of `(uid=%s)` below the parenthesis that is still to be moved. -/
theorem pldapGetFilterStr_empty : ¬ ∀ key : CString, key.length = 0 →
    FilterBuilt (fun _ => 0) (lit "(uid=%s)") key := by
  intro built
  have ⟨block, stored, _⟩ := built .empty rfl
  have stopped : pldapGetFilterStr (fun _ => 0) .empty (lit "(uid=%s)") = none := by
    decide +kernel
  rw [stopped] at stored
  cases stored

end Perdition
