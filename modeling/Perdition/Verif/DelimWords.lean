import Mathlib.Data.List.Infix
import Perdition.Str

/-!
# Words in any case

`strcasestr` compares the whole rest of the haystack with the needle, so the only occurrence it can
find is the one that ends the haystack; and `strcasedelimword` looks at the first byte of the word
where the byte behind it is meant.
-/
namespace Perdition

/-! ## What is searched for -/

/-- The needle occurs at a place of the haystack, in any case. -/
def OccursAt (haystack needle : List Byte) (place : Nat) : Prop :=
  needle.map toLower <+: (haystack.drop place).map toLower

/-- It occurs there as a word: at the start or after a delimiter, and up to the end or up to a
delimiter. -/
structure WordAt (haystack needle delim : List Byte) (place : Nat) : Prop where
  /-- It occurs. -/
  occurs : OccursAt haystack needle place
  /-- It begins a word. -/
  begins : place = 0 ∨ ∃ b, haystack[place - 1]? = some b ∧ b ∈ delim
  /-- It ends a word. -/
  ends : place + needle.length = haystack.length ∨
    ∃ b, haystack[place + needle.length]? = some b ∧ b ∈ delim

/-- The first place of a kind, or none where there is none. -/
def IsFirst (kind : Nat → Prop) : Option Nat → Prop
  | none => ∀ place, ¬ kind place
  | some place => kind place ∧ ∀ earlier < place, ¬ kind earlier

theorem IsFirst.unique {kind : Nat → Prop} {place : Nat} {result : Option Nat}
    (first : IsFirst kind result) (here : kind place) (early : ∀ earlier < place, ¬ kind earlier) :
    result = some place := by
  cases result with
  | none => exact absurd here (first place)
  | some found =>
    have after : ¬ place < found := fun before => first.2 place before here
    have before : ¬ found < place := fun after => early found after first.1
    rw [show found = place by omega]

section

variable {haystack needle : List Byte}

/-- An occurrence lies within the haystack. -/
theorem OccursAt.inside {place : Nat} (occurs : OccursAt haystack needle place)
    (filled : needle ≠ []) : place + needle.length ≤ haystack.length := by
  have long := List.length_pos_iff.mpr filled
  have short := occurs.length_le
  rw [List.length_map, List.length_map, List.length_drop] at short
  omega

/-- An occurrence that ends the haystack is the rest of it. -/
theorem occursAt_last {place : Nat} (last : place + needle.length = haystack.length) :
    OccursAt haystack needle place ↔
      (haystack.drop place).map toLower = needle.map toLower := by
  have same : (needle.map toLower).length = ((haystack.drop place).map toLower).length := by
    rw [List.length_map, List.length_map, List.length_drop]
    omega
  constructor
  · intro occurs
    exact (occurs.eq_of_length same).symm
  · intro equal
    rw [OccursAt, equal]

/-! ## What the code finds -/

/-- `strcasestr` finds the needle at the end of the haystack or nowhere. -/
theorem strcasestrFrom_eq (filled : needle ≠ []) (start : Nat) :
    strcasestrFrom haystack needle start =
      if needle.length ≤ haystack.length ∧
          (haystack.drop (haystack.length - needle.length)).map toLower = needle.map toLower then
        some (start + (haystack.length - needle.length))
      else none := by
  have long := List.length_pos_iff.mpr filled
  induction haystack generalizing start with
  | nil =>
    rw [strcasestrFrom.eq_def]
    have short : ¬ needle.length ≤ ([] : List Byte).length := by
      rw [List.length_nil]
      omega
    rw [if_pos (by rw [List.length_nil]; omega), if_neg fun both => short both.1]
  | cons b rest ih =>
    rw [strcasestrFrom.eq_def]
    by_cases short : (b :: rest).length < needle.length
    · rw [if_pos short, if_neg (by omega)]
    rw [if_neg short]
    by_cases whole : (b :: rest).map toLower = needle.map toLower
    · have size := congrArg List.length whole
      rw [List.length_map, List.length_map] at size
      rw [if_pos whole, size, Nat.sub_self, List.drop_zero, if_pos ⟨le_rfl, whole⟩]
      rfl
    · rw [if_neg whole]
      dsimp only
      rw [ih]
      by_cases exact_ : (b :: rest).length = needle.length
      · have none_ : ¬ needle.length ≤ rest.length := by
          rw [← exact_, List.length_cons]
          omega
        rw [if_neg fun both => none_ both.1, exact_, Nat.sub_self, List.drop_zero,
          if_neg fun both => whole both.2]
      · have room : needle.length ≤ rest.length := by
          rw [List.length_cons] at short exact_
          omega
        have size : (b :: rest).length - needle.length =
            rest.length - needle.length + 1 := by
          rw [List.length_cons]
          omega
        rw [size, List.drop_succ_cons]
        by_cases same : (rest.drop (rest.length - needle.length)).map toLower =
            needle.map toLower
        · rw [if_pos ⟨room, same⟩, if_pos ⟨by rw [List.length_cons]; omega, same⟩]
          congr 1
          omega
        · rw [if_neg fun both => same both.2, if_neg fun both => same both.2]

end

section

variable {haystack needle delim : CString}

/-- What is found is an occurrence that ends the haystack, and such an occurrence is found. -/
theorem strcasestr_some_iff (filled : needle.content ≠ []) {place : Nat} :
    strcasestr haystack needle = some place ↔
      OccursAt haystack.content needle.content place ∧
        place + needle.length = haystack.length := by
  rw [strcasestr, strcasestrFrom_eq filled]
  constructor
  · intro found
    split at found
    · rename_i last
      rw [Option.some.injEq, Nat.zero_add] at found
      have ends : place + needle.content.length = haystack.content.length := by omega
      rw [found] at last
      exact ⟨(occursAt_last ends).mpr last.2, ends⟩
    · cases found
  · intro ⟨occurs, ends⟩
    have ends : place + needle.content.length = haystack.content.length := ends
    have here : haystack.content.length - needle.content.length = place := by omega
    rw [here, if_pos ⟨by omega, (occursAt_last ends).mp occurs⟩, Nat.zero_add]

/-- It is the first occurrence exactly where there is none but at the end. -/
theorem strcasestr_isFirst (filled : needle.content ≠ []) :
    IsFirst (OccursAt haystack.content needle.content) (strcasestr haystack needle) ↔
      ∀ place, OccursAt haystack.content needle.content place →
        place + needle.length = haystack.length := by
  constructor
  · intro first place occurs
    cases found : strcasestr haystack needle with
    | none =>
      rw [found] at first
      exact absurd occurs (first place)
    | some last =>
      rw [found] at first
      have ends := ((strcasestr_some_iff filled).mp found).2
      have late : ¬ place < last := fun early => first.2 place early occurs
      have inside : place + needle.length ≤ haystack.length := occurs.inside filled
      omega
  · intro last
    cases found : strcasestr haystack needle with
    | none =>
      intro place occurs
      have some_ := (strcasestr_some_iff filled).mpr ⟨occurs, last place occurs⟩
      rw [found] at some_
      cases some_
    | some place =>
      have ⟨occurs, ends⟩ := (strcasestr_some_iff filled).mp found
      refine ⟨occurs, fun earlier before here => ?_⟩
      have same := last earlier here
      omega

/-- A word begins with a line feed or a delimiter. -/
def BeginsDelimited (haystack delim : List Byte) (place : Nat) : Prop :=
  ∃ b, haystack[place]? = some b ∧ (b = lf ∨ b ∈ delim)

/-- What `strcasedelimword` finds is a word that ends the haystack and begins with a delimiter. -/
theorem strcasedelimword_some_iff (filled : needle.content ≠ []) {place : Nat} :
    strcasedelimword haystack needle delim = some place ↔
      WordAt haystack.content needle.content delim.content place ∧
        place + needle.length = haystack.length ∧
          BeginsDelimited haystack.content delim.content place := by
  have long : 0 < needle.content.length := List.length_pos_iff.mpr filled
  -- the byte at a place inside the haystack
  have byte {at_ : Nat} (inside : at_ < haystack.content.length) :
      ∃ b, haystack.content[at_]? = some b :=
    ⟨_, List.getElem?_eq_getElem inside⟩
  have tests {found : Nat} (at_ : strcasestrFrom haystack.content needle.content 0 = some found)
      (ends : found + needle.content.length = haystack.content.length) :
      strcasedelimword haystack needle delim = some place ↔ found = place ∧
        (found = 0 ∨ ∃ b, haystack.content[found - 1]? = some b ∧ b ∈ delim.content) ∧
          BeginsDelimited haystack.content delim.content found := by
    obtain ⟨first, here⟩ := byte (show found < haystack.content.length by omega)
    obtain ⟨last, before⟩ := byte (show found - 1 < haystack.content.length by omega)
    rw [strcasedelimword, at_]
    dsimp only
    rw [BeginsDelimited, here, before]
    by_cases start : found = 0
    · by_cases line : first = lf <;> by_cases listed : first ∈ delim.content <;>
        simp [start, line, listed]
    · by_cases preceded : last ∈ delim.content <;> by_cases line : first = lf <;>
        by_cases listed : first ∈ delim.content <;> simp [start, preceded, line, listed]
  constructor
  · intro found
    cases strcasestr_ : strcasestr haystack needle with
    | none =>
      rw [strcasestr] at strcasestr_
      rw [strcasedelimword, strcasestr_] at found
      cases found
    | some at_ =>
      obtain ⟨occurs, ends⟩ := (strcasestr_some_iff filled).mp strcasestr_
      obtain ⟨rfl, begins, delimited⟩ := (tests strcasestr_ ends).mp found
      exact ⟨⟨occurs, begins, .inl ends⟩, ends, delimited⟩
  · rintro ⟨word, ends, delimited⟩
    have found := (strcasestr_some_iff filled).mpr ⟨word.occurs, ends⟩
    exact (tests found ends).mpr ⟨rfl, word.begins, delimited⟩

/-- It is the first word exactly where every word ends the haystack and begins with a delimiter. -/
theorem strcasedelimword_isFirst (filled : needle.content ≠ []) :
    IsFirst (WordAt haystack.content needle.content delim.content)
        (strcasedelimword haystack needle delim) ↔
      ∀ place, WordAt haystack.content needle.content delim.content place →
        place + needle.length = haystack.length ∧
          BeginsDelimited haystack.content delim.content place := by
  constructor
  · intro first place word
    cases found : strcasedelimword haystack needle delim with
    | none =>
      rw [found] at first
      exact absurd word (first place)
    | some last =>
      rw [found] at first
      have ⟨_, ends, delimited⟩ := (strcasedelimword_some_iff filled).mp found
      have late : ¬ place < last := fun early => first.2 place early word
      have inside : place + needle.length ≤ haystack.length := word.occurs.inside filled
      obtain rfl : place = last := by omega
      exact ⟨ends, delimited⟩
  · intro last
    cases found : strcasedelimword haystack needle delim with
    | none =>
      intro place word
      have some_ := (strcasedelimword_some_iff filled).mpr ⟨word, last place word⟩
      rw [found] at some_
      cases some_
    | some place =>
      have ⟨word, ends, _⟩ := (strcasedelimword_some_iff filled).mp found
      refine ⟨word, fun earlier before here => ?_⟩
      have same := (last earlier here).1
      omega

end

/-- `strcasestr` returns the first occurrence of its needle exactly where the needle occurs nowhere
but at the end of the haystack, and `strcasedelimword` the first word exactly where every word ends
the haystack and begins with a line feed or a delimiter. -/
theorem strcasedelimword_iff (haystack needle delim : CString) (filled : needle.content ≠ []) :
    (IsFirst (OccursAt haystack.content needle.content) (strcasestr haystack needle) ↔
      ∀ place, OccursAt haystack.content needle.content place →
        place + needle.length = haystack.length) ∧
    (IsFirst (WordAt haystack.content needle.content delim.content)
        (strcasedelimword haystack needle delim) ↔
      ∀ place, WordAt haystack.content needle.content delim.content place →
        place + needle.length = haystack.length ∧
          BeginsDelimited haystack.content delim.content place) :=
  ⟨strcasestr_isFirst filled, strcasedelimword_isFirst filled⟩

/-- The needle ends the haystack and is no word there. -/
theorem strcasedelimword_inner :
    IsFirst (OccursAt (lit "XPLAIN").content (lit "plain").content)
        (strcasestr (lit "XPLAIN") (lit "plain")) ∧
      IsFirst (WordAt (lit "XPLAIN").content (lit "plain").content (lit " ").content)
        (strcasedelimword (lit "XPLAIN") (lit "plain") (lit " ")) := by
  have ⟨first, word⟩ :=
    strcasedelimword_iff (lit "XPLAIN") (lit "plain") (lit " ") (by decide +kernel)
  have start : ¬ OccursAt (lit "XPLAIN").content (lit "plain").content 0 := by
    rw [OccursAt, ← List.isPrefixOf_iff_prefix]
    decide +kernel
  have sizes : (lit "plain").length + 1 = (lit "XPLAIN").length := by decide +kernel
  have last : ∀ place, OccursAt (lit "XPLAIN").content (lit "plain").content place →
      place = 1 := by
    intro place occurs
    have inside : place + (lit "plain").length ≤ (lit "XPLAIN").length :=
      occurs.inside (by decide +kernel)
    have other : place ≠ 0 := by
      intro same
      exact start (same ▸ occurs)
    omega
  constructor
  · apply first.mpr
    intro place occurs
    rw [last place occurs, Nat.add_comm]
    exact sizes
  · apply word.mpr
    intro place here
    have same := last place here.occurs
    subst same
    have ⟨b, before, delimits⟩ := here.begins.resolve_left Nat.one_ne_zero
    have apart : ∀ b, (lit "XPLAIN").content[1 - 1]? = some b → b ∉ (lit " ").content := by
      have found : (lit "XPLAIN").content[1 - 1]? = some 88 := by decide +kernel
      intro b at_
      rw [found, Option.some.injEq] at at_
      rw [← at_]
      decide +kernel
    exact absurd delimits (apart b before)

/-- A word of a list with another word behind it is not found, nor is the last one. -/
theorem strcasedelimword_hidden :
    ¬ IsFirst (OccursAt (lit "PLAIN LOGIN").content (lit "PLAIN").content)
        (strcasestr (lit "PLAIN LOGIN") (lit "PLAIN")) ∧
      ¬ IsFirst (WordAt (lit "PLAIN LOGIN").content (lit "LOGIN").content (lit " ").content)
        (strcasedelimword (lit "PLAIN LOGIN") (lit "LOGIN") (lit " ")) := by
  have first : strcasestr (lit "PLAIN LOGIN") (lit "PLAIN") = none := by decide +kernel
  have second : strcasedelimword (lit "PLAIN LOGIN") (lit "LOGIN") (lit " ") = none := by
    decide +kernel
  rw [first, second]
  constructor
  · intro none_
    apply none_ 0
    rw [OccursAt, ← List.isPrefixOf_iff_prefix]
    decide +kernel
  · intro none_
    apply none_ 6
    constructor
    · rw [OccursAt, ← List.isPrefixOf_iff_prefix]
      decide +kernel
    · exact .inr ⟨space, by decide +kernel, by decide +kernel⟩
    · exact .inl (by decide +kernel)

end Perdition
