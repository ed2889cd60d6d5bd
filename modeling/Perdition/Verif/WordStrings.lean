import Perdition.Verif.Relays

/-!
# The string of the words of a line

`queue_to_string` joins words by spaces. A word that is longer than its buffer is cut, so the string is the
line only as far as the buffer goes, and it ends at the first NUL.
-/
namespace Perdition

/-! ## Words -/

/-- A plain first word ends at the space. -/
theorem wordsFrom_space (quotes : Bool) {w : List Byte}
    (plain : ∀ b ∈ w, b ≠ cr ∧ b ≠ space ∧ b ≠ dquote) (rest word : List Byte)
    (short : word.length + w.length < maxLineLength) :
    wordsFrom quotes word false (w ++ space :: rest) = (word ++ w) :: words quotes rest := by
  induction w generalizing word with
  | nil =>
    rw [List.nil_append, wordsFrom, if_neg (by decide), if_pos ⟨rfl, rfl⟩, List.append_nil]
    rfl
  | cons b w ih =>
    obtain ⟨⟨noCr, noSpace, noQuote⟩, others⟩ := List.forall_mem_cons.mp plain
    rw [List.length_cons] at short
    have plainByte : (quotes && b == dquote) = false := by
      rw [beq_false_of_ne noQuote, Bool.and_false]
    rw [List.cons_append, wordsFrom, if_neg noCr, if_neg fun both => noSpace both.1,
      if_neg (by omega), plainByte, if_neg Bool.false_ne_true, ih others (word ++ [b]) (by
        rw [List.length_append, List.length_singleton]
        omega), List.append_assoc, List.singleton_append]

/-- A first word without quotes that is not cut is all of the line, or the others are those of the rest. -/
theorem wordsFrom_first {quotes : Bool} {w : List Byte} {list : List (List Byte)}
    (short : w.length < maxLineLength) (plain : dquote ∉ w) (line word : List Byte) (clean : cr ∉ line)
    (first : wordsFrom quotes word false line = w :: list) :
    (∃ rest, word ++ line = w ++ space :: rest ∧ list = words quotes rest) ∨
      list = [] ∧ word ++ line = w := by
  induction line generalizing word with
  | nil =>
    obtain ⟨same, none_⟩ := List.cons.inj first
    exact .inr ⟨none_.symm, by rw [List.append_nil, same]⟩
  | cons b line ih =>
    obtain ⟨noCr, clean⟩ := List.ne_and_not_mem_of_not_mem_cons clean
    rw [wordsFrom, if_neg (Ne.symm noCr)] at first
    by_cases end_ : b = space
    · rw [if_pos ⟨end_, rfl⟩] at first
      obtain ⟨same, others⟩ := List.cons.inj first
      exact .inl ⟨line, by rw [end_, same], others.symm⟩
    rw [if_neg fun both => end_ both.1] at first
    by_cases full : maxLineLength ≤ word.length + 1
    · rw [if_pos full] at first
      have length := congrArg List.length (List.cons.inj first).1
      rw [List.length_append, List.length_singleton] at length
      omega
    rw [if_neg full] at first
    have begun : word ++ [b] <+: w :=
      wordsFrom_prefix quotes line (word ++ [b]) _ w (by rw [first]; rfl)
    have plainByte : (quotes && b == dquote) = false := by
      rw [beq_false_of_ne fun same => plain (begun.subset (by simp [same])), Bool.and_false]
    rw [plainByte, if_neg Bool.false_ne_true] at first
    have found := ih (word ++ [b]) clean first
    rw [List.append_assoc, List.singleton_append] at found
    exact found

/-! ## Strings -/

/-- Lists that agree as far as the buffer goes begin alike. -/
theorem begins_of_take {left right front : List Byte}
    (agree : left.take maxLineLength = right.take maxLineLength)
    (short : front.length ≤ maxLineLength) (begins : front <+: left) : front <+: right := by
  have part := congrArg (List.take front.length) agree
  rw [List.take_take, List.take_take, Nat.min_eq_left short] at part
  rw [List.prefix_iff_eq_take, ← part]
  exact List.prefix_iff_eq_take.mp begins

/-- The words of a line make the text exactly where the line is the text up to its end or its first NUL. -/
theorem words_string (quotes : Bool) {line : List Byte} (clean : cr ∉ line) {text : CString}
    (short : text.length < maxLineLength) :
    cstr (List.intercalate [space] (words quotes line)) = text ↔
      ∃ tail, line = text.content ++ tail ∧ (tail = [] ∨ tail.head? = some 0) := by
  have agree : (List.intercalate [space] (words quotes line)).take maxLineLength =
      line.take maxLineLength := by
    have found := wordsFrom_take quotes line clean [] false (by decide)
    rwa [List.nil_append] at found
  have room : (text.content ++ [0]).length ≤ maxLineLength := by
    rw [List.length_append]
    exact short
  constructor
  · intro same
    by_cases nul : 0 ∈ List.intercalate [space] (words quotes line)
    · have ⟨front, back, split_, first⟩ := List.eq_append_cons_of_mem nul
      have before : front = text.content := by
        rw [split_, cstr_nul] at same
        rw [← same, cstr_content first]
      have begins : text.content ++ [0] <+: line := by
        apply begins_of_take agree room
        rw [split_, before]
        exact ⟨back, by rw [List.append_assoc, List.singleton_append]⟩
      have ⟨rest, whole⟩ := begins
      exact ⟨0 :: rest, by rw [← whole, List.append_assoc, List.singleton_append], .inr rfl⟩
    · have whole : List.intercalate [space] (words quotes line) = text.content := by
        rw [← same, cstr_content nul]
      have length := congrArg List.length agree
      rw [List.length_take, List.length_take, whole] at length
      change min _ text.length = _ at length
      rw [whole, List.take_of_length_le (Nat.le_of_lt short), List.take_of_length_le (by omega)]
        at agree
      exact ⟨[], by rw [List.append_nil, agree], .inl rfl⟩
  · intro ⟨tail, whole, ended⟩
    cases tail with
    | nil =>
      rw [List.append_nil] at whole
      have same : withoutCr line = line := List.filter_eq_self.mpr fun b member =>
        decide_eq_true fun (return_ : b = cr) => clean (return_ ▸ member)
      rw [words_join quotes (whole ▸ short), same, whole, cstr_self]
    | cons b tail =>
      have zero : b = 0 := by
        rcases ended with none_ | head
        · cases none_
        · exact Option.some.inj head
      have begins : text.content ++ [0] <+: List.intercalate [space] (words quotes line) := by
        apply begins_of_take agree.symm room
        rw [whole, zero]
        exact ⟨tail, by rw [List.append_assoc, List.singleton_append]⟩
      have ⟨rest, joined⟩ := begins
      rw [← joined, List.append_assoc, List.singleton_append, cstr_nul, cstr_self]

end Perdition
