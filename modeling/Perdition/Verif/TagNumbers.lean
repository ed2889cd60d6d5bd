import Perdition.Imap4Out
import Perdition.Lib.Odometer

/-!
# Tags as numbers

`imap4_tag_inc` is an odometer whose wheels have the digits 0-9, a-z and A-Z, in this order.
-/
namespace Perdition

open Lib

/-- A character of a tag of the program. -/
def tagChar (b : Byte) : Bool := isDigit b || isLower b || isUpper b

/-- The digit that a character of a tag is. -/
def tagDigit (b : Byte) : Nat :=
  if isDigit b then b.toNat - 48 else if isLower b then b.toNat - 87 else b.toNat - 29

theorem tagChar_cases (b : Byte) (char : tagChar b = true) :
    48 ≤ b.toNat ∧ b.toNat ≤ 57 ∧ tagDigit b = b.toNat - 48 ∨
    97 ≤ b.toNat ∧ b.toNat ≤ 122 ∧ tagDigit b = b.toNat - 87 ∨
    65 ≤ b.toNat ∧ b.toNat ≤ 90 ∧ tagDigit b = b.toNat - 29 := by
  revert b
  exact byte_of_nat (by decide +kernel)

/-- The character after a character of a tag. -/
theorem tagNext_char (b : Byte) (char : tagChar b = true) :
    tagChar (imap4TagNext b).1 = true ∧
    ((imap4TagNext b).2 = true → tagDigit (imap4TagNext b).1 = tagDigit b + 1) ∧
    ((imap4TagNext b).2 = false → tagDigit (imap4TagNext b).1 = 0 ∧ tagDigit b + 1 = 62) := by
  revert b
  exact byte_of_nat (by decide +kernel)

/-- A character of a tag as a wheel of an odometer. -/
def tagWheel : Wheel Byte where
  symbol b := tagChar b = true
  base := 62
  digit := tagDigit
  next := imap4TagNext
  base_two := by decide
  digit_lt b char := by
    have cases_ := tagChar_cases b char
    omega
  digit_inj c d char char' same := by
    have left := tagChar_cases c char
    have right := tagChar_cases d char'
    apply UInt8.toNat_inj.mp
    omega
  next_symbol b char := (tagNext_char b char).1
  next_digit b char := (tagNext_char b char).2.1
  next_over b char := (tagNext_char b char).2.2

/-- The number of a tag. Its last character counts least. -/
def tagNumber (tag : Token) : Nat := Nat.ofDigits 62 (tag.buf.reverse.map tagDigit)

theorem imap4TagIncFrom_advance (before : List Byte) :
    imap4TagIncFrom before = tagWheel.advance before := by
  induction before with
  | nil => rfl
  | cons c before ih =>
    rw [imap4TagIncFrom, Wheel.advance, ih]
    rfl

/-- The characters after so many increments. -/
theorem imap4TagInc_iterate (tag : Token) (n : Nat) :
    (imap4TagInc^[n] tag).buf.reverse = tagWheel.advance^[n] tag.buf.reverse := by
  induction n with
  | zero => rfl
  | succ n ih =>
    rw [Function.iterate_succ_apply', Function.iterate_succ_apply', ← ih, imap4TagInc,
      List.reverse_reverse, imap4TagIncFrom_advance]

/-- `imap4_tag_inc` adds one, every increment after another, and a tag comes again when all tags of its
length have come. -/
theorem imap4TagInc_counts (tag : Token) (chars : ∀ b ∈ tag.buf, tagChar b = true) :
    tagNumber (imap4TagInc tag) = (tagNumber tag + 1) % 62 ^ tag.len ∧
    (∀ n, tagNumber (imap4TagInc^[n] tag) = (tagNumber tag + n) % 62 ^ tag.len ∧
      (∀ b ∈ (imap4TagInc^[n] tag).buf, tagChar b = true) ∧ (imap4TagInc^[n] tag).len = tag.len) ∧
    IsLeast {n | ∃ m < n, (imap4TagInc^[m] tag).buf = (imap4TagInc^[n] tag).buf} (62 ^ tag.len) := by
  have row : tagWheel.Row tag.buf.reverse := fun b member => chars b (List.mem_reverse.mp member)
  have length : tag.buf.reverse.length = tag.len := List.length_reverse
  have number (n : Nat) : tagNumber (imap4TagInc^[n] tag) = (tagNumber tag + n) % 62 ^ tag.len := by
    have moved := row.value_iterate n
    rw [← imap4TagInc_iterate, length] at moved
    exact moved
  refine ⟨number 1, fun n => ⟨number n, ?chars, ?length⟩, ?first⟩
  case chars =>
    intro b member
    apply (row.iterate n).1
    rw [← imap4TagInc_iterate]
    exact List.mem_reverse.mpr member
  case length =>
    have same := (row.iterate n).2
    rw [← imap4TagInc_iterate, List.length_reverse, List.length_reverse] at same
    exact same
  case first =>
    have first := row.iterate_repeats
    have same (m n : Nat) : (imap4TagInc^[m] tag).buf = (imap4TagInc^[n] tag).buf ↔
        tagWheel.advance^[m] tag.buf.reverse = tagWheel.advance^[n] tag.buf.reverse := by
      rw [← imap4TagInc_iterate, ← imap4TagInc_iterate, List.reverse_inj]
    simp only [same]
    rwa [length] at first

/-- The tag that `imap4_tag_create` makes. -/
theorem imap4TagInc_counts_create :
    IsLeast {n | ∃ m < n, (imap4TagInc^[m] imap4TagCreate).buf =
      (imap4TagInc^[n] imap4TagCreate).buf} (62 ^ 6) :=
  (imap4TagInc_counts imap4TagCreate (by decide +kernel)).2.2

end Perdition
