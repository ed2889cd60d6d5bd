import Mathlib.Algebra.Ring.Int.Defs
import Mathlib.Algebra.Ring.Nat
import Mathlib.Data.List.TakeWhile

/-!
# Bytes and C strings

Bytes are unsigned here whatever the signedness of `char`. A `CString` is the content of a string
up to its terminating NUL, so that no value of the type holds a NUL byte.
-/
namespace Perdition

/-- A byte read from or written to a connection. -/
abbrev Byte := UInt8

/-- The ASCII bytes of a source literal. -/
def bytes (text : String) : List Byte :=
  text.toList.map fun c => UInt8.ofNat c.toNat

/-- The space byte. -/
def space : Byte := 32

/-- The carriage return byte. -/
def cr : Byte := 13

/-- The line feed byte. -/
def lf : Byte := 10

/-- The double quote byte. -/
def dquote : Byte := 34

/-- The backslash byte. -/
def backslash : Byte := 92

/-- The percent sign. -/
def percent : Byte := 37

/-- The bytes that end a line on the wire. -/
def crlf : List Byte := [cr, lf]

/-- The content of a NUL-terminated string. -/
structure CString where
  /-- The bytes before the NUL. -/
  content : List Byte
  /-- None of them is NUL. -/
  noNul : 0 ∉ content
  deriving DecidableEq

namespace CString

@[ext] theorem ext {left right : CString} (same : left.content = right.content) :
    left = right := by
  cases left; cases right; simp_all

/-- The string of no bytes. -/
def empty : CString := ⟨[], by simp⟩

/-- `strlen`. -/
def length (s : CString) : Nat := s.content.length

/-- The string is `""`. -/
def isEmpty (s : CString) : Bool := s.content.isEmpty

instance : Append CString where
  append left right := ⟨left.content ++ right.content, by
    simpa using ⟨left.noNul, right.noNul⟩⟩

@[simp] theorem content_append (left right : CString) :
    (left ++ right).content = left.content ++ right.content := rfl

@[simp] theorem content_empty : empty.content = [] := rfl

end CString

/-- The string that starts at the first of these bytes and ends before the first NUL. -/
def cstr (content : List Byte) : CString :=
  ⟨content.takeWhile (· != 0), fun nul => by simpa using List.mem_takeWhile_imp nul⟩

/-- A string literal of the source. -/
def lit (text : String) : CString := cstr (bytes text)

/-- Bytes without a NUL are the whole string. -/
theorem cstr_content {content : List Byte} (noNul : 0 ∉ content) :
    (cstr content).content = content := by
  refine List.takeWhile_eq_self_iff.mpr fun b member => ?_
  simp only [bne_iff_ne, ne_eq]
  rintro rfl
  exact noNul member

@[simp] theorem cstr_self (s : CString) : cstr s.content = s :=
  CString.ext (cstr_content s.noNul)

/-- Bytes without a NUL are the start of the string. -/
theorem cstr_append {front : List Byte} (noNul : 0 ∉ front) (back : List Byte) :
    (cstr (front ++ back)).content = front ++ (cstr back).content := by
  refine List.takeWhile_append_of_pos fun b member => ?_
  simp only [bne_iff_ne, ne_eq]
  rintro rfl
  exact noNul member

/-- What follows a NUL is no part of the string. -/
theorem cstr_nul (front back : List Byte) : cstr (front ++ 0 :: back) = cstr front := by
  refine CString.ext ?_
  change (front ++ 0 :: back).takeWhile (· != 0) = front.takeWhile (· != 0)
  rw [List.takeWhile_append]
  split
  · rename_i same
    have whole := (List.takeWhile_prefix (l := front) (· != 0)).eq_of_length same
    rw [whole]
    simp
  · rfl

/-- A string is never longer than the bytes it starts in. -/
theorem cstr_length_le (content : List Byte) : (cstr content).length ≤ content.length :=
  (List.takeWhile_prefix _).length_le

/-! ## Characters -/

/-- `tolower` in the C locale. -/
def toLower (b : Byte) : Byte := if 65 ≤ b ∧ b ≤ 90 then b + 32 else b

/-- `toupper` in the C locale. -/
def toUpper (b : Byte) : Byte := if 97 ≤ b ∧ b ≤ 122 then b - 32 else b

/-- `isdigit`. -/
def isDigit (b : Byte) : Bool := 48 ≤ b && b ≤ 57

/-- `islower` in the C locale. -/
def isLower (b : Byte) : Bool := 97 ≤ b && b ≤ 122

/-- `isupper` in the C locale. -/
def isUpper (b : Byte) : Bool := 65 ≤ b && b ≤ 90

/-- `isspace` in the C locale. -/
def isSpace (b : Byte) : Bool := b = 32 || (9 ≤ b && b ≤ 13)

/-- `strncasecmp` of two buffers finds no difference in the first `n` bytes. -/
def strncaseEq (left right : List Byte) (n : Nat) : Bool :=
  (cstr (left.take n)).content.map toLower = (cstr (right.take n)).content.map toLower

/-- `strcasecmp` of two strings finds no difference. -/
def strcaseEq (left right : CString) : Bool :=
  left.content.map toLower = right.content.map toLower

/-- A property of the numbers below 256 is one of all bytes. -/
theorem byte_of_nat {holds : Byte → Prop} (each : ∀ n < 256, holds (UInt8.ofNat n)) (b : Byte) :
    holds b := by
  simpa using each b.toNat b.toNat_lt

theorem toLower_nul (b : Byte) : toLower b = 0 → b = 0 := by
  revert b
  exact byte_of_nat (by decide +kernel)

/-- Only the NUL is a NUL in lower case. -/
theorem noNul_lower {content : List Byte} (noNul : 0 ∉ content) : 0 ∉ content.map toLower := by
  intro nul
  obtain ⟨b, member, zero⟩ := List.mem_map.mp nul
  exact noNul (toLower_nul b zero ▸ member)

/-- Bytes with the same letters as bytes without a NUL have none. -/
theorem noNul_of_letters {left right : List Byte} (same : left.map toLower = right.map toLower)
    (clean : 0 ∉ left) : 0 ∉ right := by
  intro nul
  have lower : toLower 0 ∈ left.map toLower := same ▸ List.mem_map_of_mem nul
  obtain ⟨b, member, zero⟩ := List.mem_map.mp lower
  exact clean (toLower_nul b zero ▸ member)

/-! ## Decimal numbers -/

/-- The decimal digits of a number, as `%d` prints it. -/
def decimal (n : Nat) : List Byte := (Nat.toDigits 10 n).map fun c => UInt8.ofNat c.toNat

/-- A decimal number is made of digits. -/
theorem isDigit_decimal {n : Nat} {b : Byte} (member : b ∈ decimal n) : isDigit b = true := by
  have ⟨c, inside, same⟩ := List.mem_map.mp member
  have digit := Nat.isDigit_of_mem_toDigits (by decide) (by decide) inside
  simp only [Char.isDigit, ge_iff_le, Bool.and_eq_true, decide_eq_true_eq] at digit
  have low : 48 ≤ c.toNat := digit.1
  have high : c.toNat ≤ 57 := digit.2
  have byte : b.toNat = c.toNat := by
    rw [← same, UInt8.toNat_ofNat']
    omega
  simp only [isDigit, Bool.and_eq_true, decide_eq_true_eq, UInt8.le_iff_toNat_le]
  exact ⟨byte ▸ low, byte ▸ high⟩

theorem decimal_ne_nil (n : Nat) : decimal n ≠ [] := by
  simp [decimal, Nat.toDigits_ne_nil]

/-- The value of a run of digits read after a value. -/
def digitsValue (start : Nat) (digits : List Byte) : Nat :=
  digits.foldl (fun value digit => value * 10 + (digit.toNat - 48)) start

/-- `ULONG_MAX` of a 64-bit platform. -/
def ulongMax : Nat := 2 ^ 64 - 1

/-- The parts `strtoul` sees in a string: a minus sign, the digits, and what is left after them. No
digits at all leave the whole string. -/
def strtoulParts (text : List Byte) : Bool × List Byte × List Byte :=
  let trimmed := text.dropWhile isSpace
  let (negative, body) := match trimmed with
    | 45 :: rest => (true, rest)
    | 43 :: rest => (false, rest)
    | _ => (false, trimmed)
  let digits := body.takeWhile isDigit
  if digits.isEmpty then (false, [], text) else (negative, digits, body.dropWhile isDigit)

theorem digit_plain {b : Byte} (digit : isDigit b = true) :
    b ≠ 0 ∧ b ≠ 45 ∧ b ≠ 43 ∧ b ≠ cr ∧ b ≠ space ∧ b ≠ dquote ∧ isSpace b = false := by
  have each : ∀ b : Byte, isDigit b = true → b ≠ 0 ∧ b ≠ 45 ∧ b ≠ 43 ∧ b ≠ cr ∧ b ≠ space ∧
      b ≠ dquote ∧ isSpace b = false := byte_of_nat (by decide +kernel)
  exact each b digit

/-- `strtoul` sees the digits that a text begins with. -/
theorem strtoulParts_digits {digits rest : List Byte} (filled : digits ≠ [])
    (numeric : ∀ d ∈ digits, isDigit d = true) (ends_ : ∀ c ∈ rest.head?, isDigit c = false) :
    strtoulParts (digits ++ rest) = (false, digits, rest) := by
  have none_ : rest.takeWhile isDigit = [] ∧ rest.dropWhile isDigit = rest := by
    cases rest with
    | nil => exact ⟨rfl, rfl⟩
    | cons c rest =>
      have other := ends_ c rfl
      exact ⟨List.takeWhile_cons_of_neg (by simp [other]),
        List.dropWhile_cons_of_neg (by simp [other])⟩
  have all : (digits ++ rest).takeWhile isDigit = digits := by
    rw [List.takeWhile_append_of_pos numeric, none_.1, List.append_nil]
  have left : (digits ++ rest).dropWhile isDigit = rest := by
    rw [List.dropWhile_append_of_pos numeric, none_.2]
  cases digits with
  | nil => exact absurd rfl filled
  | cons b digits =>
    have first := digit_plain (numeric b List.mem_cons_self)
    have trimmed : (b :: digits ++ rest).dropWhile isSpace = b :: digits ++ rest := by
      rw [List.cons_append, List.dropWhile_cons_of_neg (by simp [first])]
    rw [strtoulParts]
    dsimp only
    rw [trimmed]
    split
    · rename_i same
      exact absurd (List.cons.inj same).1 first.2.1
    · rename_i same
      exact absurd (List.cons.inj same).1 first.2.2.1
    · rw [all, left]
      rfl

/-- `strtoul` in base 10: white space, an optional sign, digits, with saturation. -/
def strtoul (text : CString) : Nat :=
  let (negative, digits, _) := strtoulParts text.content
  let value := digitsValue 0 digits
  if ulongMax < value then ulongMax
  else if negative then (2 ^ 64 - value) % 2 ^ 64
  else value

/-- `atoi`, which is `strtol` and a conversion to `int`. -/
def atoi (text : CString) : Int :=
  let (negative, digits, _) := strtoulParts text.content
  let value : Int := digitsValue 0 digits
  Int.bmod (if negative then max (-2 ^ 63) (-value) else min (2 ^ 63 - 1) value) (2 ^ 32)

/-- `strtoul` stops at the end of these bytes, and has read a number if there are any. -/
def strtoulTakesAll (text : List Byte) : Bool := (strtoulParts text).2.2.isEmpty

end Perdition
