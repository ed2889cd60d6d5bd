import Mathlib.Algebra.BigOperators.Group.List.Basic
import Mathlib.Data.UInt
import Perdition.Checksum

/-!
# What the checksum sums

`str_rolling32` leaves out the last byte, and of no bytes it sums what is behind its buffer. So the
checksum of the greeting does not depend on the last byte of an option string.
-/
namespace Perdition

/-- The sum of bytes modulo 2^32. -/
def byteSum (content : List Byte) : UInt32 := (content.map (·.toUInt32)).sum

/-! ## The loop -/

/-- The loop ends at its bound. -/
theorem strRolling32Loop_reads {bound i j : UInt64} {csum sum : UInt32} {buf : List Byte}
    (before : i ≤ bound) (run : strRolling32Loop bound i csum buf = some (j, sum)) : j = bound := by
  have ends_ {i : UInt64} (before : i ≤ bound) (after : ¬ i < bound) : i = bound := by
    rw [UInt64.lt_iff_toNat_lt] at after
    rw [UInt64.le_iff_toNat_le] at before
    apply UInt64.toNat_inj.mp
    omega
  induction buf generalizing i csum with
  | nil =>
    rw [strRolling32Loop] at run
    split at run
    · cases run
    · rename_i after
      cases run
      exact ends_ before after
  | cons b rest ih =>
    rw [strRolling32Loop] at run
    split at run
    · rename_i inside
      apply ih _ run
      rw [UInt64.lt_iff_toNat_lt] at inside
      rw [UInt64.le_iff_toNat_le, UInt64.toNat_add]
      have small := bound.toNat_lt
      have one : (1 : UInt64).toNat = 1 := rfl
      omega
    · rename_i after
      cases run
      exact ends_ before after

/-- The loop reads nothing behind its bound. -/
theorem strRolling32Loop_within {bound i : UInt64} {text : List Byte} (csum : UInt32)
    (enough : bound.toNat ≤ i.toNat + text.length) (rest rest' : List Byte) :
    strRolling32Loop bound i csum (text ++ rest) = strRolling32Loop bound i csum (text ++ rest') := by
  induction text generalizing i csum with
  | nil =>
    have after : ¬ i < bound := by
      rw [UInt64.lt_iff_toNat_lt]
      simpa using enough
    have done (rest : List Byte) : strRolling32Loop bound i csum rest = some (i, csum) := by
      cases rest <;> rw [strRolling32Loop, if_neg after]
    rw [List.nil_append, List.nil_append, done, done]
  | cons b text ih =>
    rw [List.cons_append, List.cons_append, strRolling32Loop, strRolling32Loop]
    split
    · rename_i inside
      apply ih
      rw [UInt64.lt_iff_toNat_lt] at inside
      rw [List.length_cons] at enough
      rw [UInt64.toNat_add]
      have small := bound.toNat_lt
      have one : (1 : UInt64).toNat = 1 := rfl
      omega
    · rfl

/-! ## The checksum -/

/-- `str_rolling32` sums so many bytes of a buffer and reads these. -/
def SumsAll (buf : List Byte) (len : UInt64) : Prop :=
  strRolling32 buf len = some (len, byteSum (buf.take len.toNat))

/-- The checksum is the sum of the bytes of all strings, and another byte anywhere makes it another. -/
structure ChecksumRight (strings : List CString) : Prop where
  /-- It is the sum. -/
  sum : greetingChecksum strings = some (byteSum (strings.flatMap (·.content)))
  /-- It depends on every byte. -/
  depends : ∀ before str after front b back c, strings = before ++ str :: after →
    str.content = front ++ b :: back → c ≠ b → c ≠ 0 →
    greetingChecksum (before ++ cstr (front ++ c :: back) :: after) ≠ greetingChecksum strings

/-- The count of the bytes that are read is not that of the buffer. -/
theorem not_sumsAll (buf : List Byte) (len : UInt64) : ¬ SumsAll buf len := by
  intro sums
  have start : (0 : UInt64) ≤ len - 1 := UInt64.zero_le
  have same := congrArg UInt64.toNat (strRolling32Loop_reads start sums)
  rw [UInt64.toNat_sub] at same
  have small := len.toNat_lt
  have one : (1 : UInt64).toNat = 1 := rfl
  omega

/-- `str_rolling32` of the bytes of a string does not depend on the last one. -/
theorem strRolling32_last (front : List Byte) (b c : Byte) :
    strRolling32 (front ++ b :: [0]) (UInt64.ofNat (front.length + 1)) =
      strRolling32 (front ++ c :: [0]) (UInt64.ofNat (front.length + 1)) := by
  apply strRolling32Loop_within
  have bound : UInt64.ofNat (front.length + 1) - 1 = UInt64.ofNat front.length := by
    rw [UInt64.ofNat_add]
    exact UInt64.add_sub_cancel ..
  rw [bound, UInt64.toNat_ofNat']
  exact (Nat.mod_le ..).trans (Nat.le_add_left ..)

/-- A first string that sums up to the same makes the same checksum. -/
theorem greetingChecksum_cons {one other : CString} (rest : List CString)
    (same : strRolling32 (one.content ++ [0]) (UInt64.ofNat one.length) =
      strRolling32 (other.content ++ [0]) (UInt64.ofNat other.length)) :
    greetingChecksum (one :: rest) = greetingChecksum (other :: rest) := by
  rw [greetingChecksum, greetingChecksum, List.foldlM_cons, List.foldlM_cons, same]

/-- There is no checksum of an empty string. -/
theorem greetingChecksum_empty {str : CString} (empty : str.content = []) (rest : List CString) :
    greetingChecksum (str :: rest) = none := by
  have none_ : strRolling32 [0] 0 = none := by decide
  have length : UInt64.ofNat str.length = 0 := by rw [CString.length, empty]; rfl
  rw [greetingChecksum, List.foldlM_cons, empty, length, List.nil_append, none_]
  rfl

/-- `str_rolling32` sums the bytes that it is given for no buffer and no length, and the checksum of
the greeting is that of all bytes only where there are no strings. -/
theorem greetingChecksum_right_iff (buf : List Byte) (len : UInt64) (strings : List CString) :
    ¬ SumsAll buf len ∧ (ChecksumRight strings ↔ strings = []) := by
  refine ⟨not_sumsAll buf len, ?_⟩
  constructor
  · intro right
    cases strings with
    | nil => rfl
    | cons str rest =>
      rcases List.eq_nil_or_concat' str.content with empty | ⟨front, b, ends_⟩
      · have sum := right.sum
        rw [greetingChecksum_empty empty] at sum
        cases sum
      · -- another last byte makes no difference
        have ⟨c, other, some_⟩ : ∃ c : Byte, c ≠ b ∧ c ≠ 0 := by
          by_cases one : b = 1
          · exact ⟨2, by rw [one]; decide, by decide⟩
          · exact ⟨1, Ne.symm one, by decide⟩
        have noNul : 0 ∉ front ++ [c] := by
          have clean := str.noNul
          rw [ends_] at clean
          simp only [List.mem_append, List.mem_singleton, not_or] at clean ⊢
          exact ⟨clean.1, Ne.symm some_⟩
        refine absurd ?_ (right.depends [] str rest front b [] c rfl ends_ other some_)
        apply greetingChecksum_cons
        rw [CString.length, CString.length, cstr_content noNul, ends_, List.length_append,
          List.length_append, List.append_assoc, List.append_assoc]
        exact strRolling32_last front c b
  · rintro rfl
    refine ⟨rfl, fun before str after _ _ _ _ same => ?_⟩
    exact absurd same.symm (by simp)

/-- Two ports that differ in their last digit have one checksum. -/
theorem greetingChecksum_digit :
    ¬ SumsAll (bytes "port=110") 8 ∧ ¬ ChecksumRight [lit "port=110"] ∧
      greetingChecksum [lit "port=110"] = greetingChecksum [lit "port=111"] := by
  refine ⟨not_sumsAll _ _, fun right => ?_, by decide +kernel⟩
  exact right.depends [] (lit "port=110") [] (bytes "port=11") 48 [] 49 rfl (by decide) (by decide)
    (by decide) (by decide +kernel)

end Perdition
