import Mathlib.Data.Nat.Find
import Mathlib.Order.Bounds.Basic
import Perdition.Getserver
import Perdition.StrMemory

/-!
# Last occurrences

`strrstr` and `strrchr` find the last occurrence of a string and of a byte.
-/
namespace Perdition

/-- Behind a separator the text up to its end holds no later one, not even one that overlaps it. -/
def Rightmost (sep back : List Byte) : Prop :=
  ∀ front rest, sep ++ back = front ++ sep ++ rest → front = []

/-- Behind a separator of one byte this does not occur. -/
theorem rightmost_byte {b : Byte} {back : List Byte} (last : b ∉ back) : Rightmost [b] back := by
  intro front rest same
  cases front with
  | nil => rfl
  | cons c front =>
    have behind : back = front ++ [b] ++ rest := (List.cons.inj same).2
    exact absurd (by rw [behind]; simp) last

/-! ## Strings -/

/-- The search from a place down to the start finds the last occurrence up to it. -/
theorem strrstrFrom_iff (haystack needle : List Byte) (start : Nat) : ∀ place,
    strrstrFrom haystack needle start = some place ↔ place ≤ start ∧
      needle <+: haystack.drop place ∧
      ∀ later, place < later → later ≤ start → ¬ needle <+: haystack.drop later := by
  induction start with
  | zero =>
    intro place
    rw [strrstrFrom]
    by_cases here : needle.isPrefixOf haystack = true
    · rw [if_pos here, Option.some.injEq]
      constructor
      · rintro rfl
        exact ⟨le_rfl, List.isPrefixOf_iff_prefix.mp here, fun later _ _ => by omega⟩
      · exact fun ⟨first, _⟩ => by omega
    · rw [if_neg here]
      refine ⟨nofun, fun ⟨first, occurs, _⟩ => ?_⟩
      rw [Nat.le_zero.mp first] at occurs
      exact absurd (List.isPrefixOf_iff_prefix.mpr occurs) here
  | succ start ih =>
    intro place
    rw [strrstrFrom]
    by_cases here : needle.isPrefixOf (haystack.drop (start + 1)) = true
    · rw [if_pos here, Option.some.injEq]
      have occurs := List.isPrefixOf_iff_prefix.mp here
      constructor
      · rintro rfl
        exact ⟨le_rfl, occurs, fun later _ _ => by omega⟩
      · rintro ⟨first, _, last⟩
        by_contra other
        exact last (start + 1) (by omega) le_rfl occurs
    · rw [if_neg here, ih]
      have absent : ¬ needle <+: haystack.drop (start + 1) := fun occurs =>
        here (List.isPrefixOf_iff_prefix.mpr occurs)
      constructor
      · rintro ⟨first, occurs, last⟩
        refine ⟨by omega, occurs, fun later after most => ?_⟩
        by_cases end_ : later = start + 1
        · rw [end_]
          exact absent
        · exact last later after (by omega)
      · rintro ⟨first, occurs, last⟩
        have before : place ≠ start + 1 := fun same => absent (same ▸ occurs)
        exact ⟨by omega, occurs, fun later after most => last later after (by omega)⟩

/-- `strrstr` finds a string where it occurs last. -/
theorem strrstr_iff {haystack needle : List Byte} (some_ : needle ≠ []) (place : Nat) :
    strrstr haystack needle = some place ↔ needle <+: haystack.drop place ∧
      ∀ later, place < later → ¬ needle <+: haystack.drop later := by
  have positive := List.length_pos_iff.mpr some_
  have inside : ∀ {place}, needle <+: haystack.drop place →
      place + needle.length ≤ haystack.length := by
    intro place occurs
    have short := occurs.length_le
    rw [List.length_drop] at short
    omega
  rw [strrstr, if_neg some_]
  by_cases nothing : haystack = []
  · rw [if_pos nothing]
    refine ⟨nofun, fun ⟨occurs, _⟩ => ?_⟩
    have room := inside occurs
    rw [nothing, List.length_nil] at room
    omega
  rw [if_neg nothing]
  by_cases short : haystack.length < needle.length
  · rw [if_pos short]
    refine ⟨nofun, fun ⟨occurs, _⟩ => ?_⟩
    have room := inside occurs
    omega
  rw [if_neg short, strrstrFrom_iff]
  constructor
  · rintro ⟨_, occurs, last⟩
    refine ⟨occurs, fun later after found => last later after ?_ found⟩
    have room := inside found
    omega
  · rintro ⟨occurs, last⟩
    have room := inside occurs
    exact ⟨by omega, occurs, fun later after _ => last later after⟩

/-- The last occurrence is found. -/
theorem strrstr_rightmost {sep : List Byte} (some_ : sep ≠ []) (front back : List Byte) :
    strrstr (front ++ sep ++ back) sep = some front.length ↔ Rightmost sep back := by
  rw [strrstr_iff some_, List.append_assoc, List.drop_left]
  constructor
  · rintro ⟨_, last⟩ between rest same
    by_contra further
    have positive := List.length_pos_iff.mpr further
    refine last (front.length + between.length) (by omega) ?_
    rw [← List.drop_drop, List.drop_left, same, List.append_assoc, List.drop_left]
    exact List.prefix_append ..
  · intro rightmost
    refine ⟨List.prefix_append .., fun later after occurs => ?_⟩
    have ⟨rest, same⟩ := occurs
    have split_ : front.length + (later - front.length) = later := by omega
    rw [← split_, ← List.drop_drop, List.drop_left] at same
    have between := rightmost ((sep ++ back).take (later - front.length)) rest (by
      rw [List.append_assoc, same, List.take_append_drop])
    rw [List.take_eq_nil_iff] at between
    rcases between with zero | nothing
    · omega
    · exact some_ (List.append_eq_nil_iff.mp nothing).1

/-- What is found is a last occurrence. -/
theorem strrstr_some {text sep : List Byte} (some_ : sep ≠ []) {place : Nat}
    (found : strrstr text sep = some place) :
    ∃ front back, text = front ++ sep ++ back ∧ front.length = place ∧ Rightmost sep back := by
  have ⟨occurs, _⟩ := (strrstr_iff some_ place).mp found
  have ⟨back, same⟩ := occurs
  have whole : text.take place ++ sep ++ back = text := by
    rw [List.append_assoc, same, List.take_append_drop]
  have length : (text.take place).length = place := by
    rw [List.length_take]
    have positive := List.length_pos_iff.mpr some_
    have long := congrArg List.length same
    rw [List.length_append, List.length_drop] at long
    omega
  rw [← whole, ← length] at found
  rw [length] at found
  refine ⟨text.take place, back, whole.symm, length, ?_⟩
  exact (strrstr_rightmost some_ (text.take place) back).mp (by rw [found, length])

/-- Nothing is found where the string does not occur. -/
theorem strrstr_none {text sep : List Byte} (some_ : sep ≠ []) :
    strrstr text sep = none ↔ ¬ sep <:+: text := by
  constructor
  · rintro none_ ⟨front, back, same⟩
    -- the last of the occurrences would be found
    have occurs : ∃ place, sep <+: text.drop place :=
      ⟨front.length, back, by rw [← same, List.append_assoc, List.drop_left]⟩
    have bounded : ∀ place, sep <+: text.drop place → place ≤ text.length := by
      intro place here
      have short := here.length_le
      have positive := List.length_pos_iff.mpr some_
      rw [List.length_drop] at short
      omega
    have ⟨place, here⟩ := occurs
    have last := Nat.findGreatest_spec (P := fun place => sep <+: text.drop place)
      (bounded place here) here
    have found := (strrstr_iff some_ _).mpr ⟨last, fun later after there =>
      Nat.findGreatest_is_greatest after (bounded later there) there⟩
    rw [none_] at found
    cases found
  · intro absent
    cases found : strrstr text sep with
    | none => rfl
    | some place =>
      have ⟨front, back, same, _⟩ := strrstr_some some_ found
      exact absurd ⟨front, back, same.symm⟩ absent

/-! ## Strings in memory -/

/-- `strncmp` of as many bytes as the other string has compares with the start of a string, and reads no
byte behind its NUL. -/
theorem strncmpIn_prefix {needle : List Byte} (noNul : 0 ∉ needle) (text rest : List Byte) :
    strncmpIn needle.length (text ++ [0]) (needle ++ rest) = some (needle.isPrefixOf text) := by
  induction needle generalizing text with
  | nil => rfl
  | cons b needle ih =>
    have ⟨here, later⟩ := not_or.mp (mt List.mem_cons.mpr noNul)
    cases text with
    | nil =>
      have other : (0 : Byte) ≠ b := here
      rw [List.nil_append, List.cons_append, List.length_cons, strncmpIn, if_pos other]
      rfl
    | cons c text =>
      rw [List.cons_append, List.cons_append, List.length_cons, strncmpIn, List.isPrefixOf_cons_cons]
      by_cases same : c = b
      · rw [if_neg (not_not.mpr same), same, if_neg (Ne.symm here), ih later, beq_self_eq_true,
          Bool.true_and]
      · rw [if_pos same, beq_eq_false_iff_ne.mpr (Ne.symm same), Bool.false_and]

theorem strlenIn_string (text : CString) : strlenIn (text.content ++ [0]) = some text.length :=
  findIdx?_string text.noNul []

/-- The loop of `strrstr` searches from a place inside the haystack. -/
theorem strrstrLoop_from (haystack needle : CString) {place : Nat} (inside : place ≤ haystack.length) :
    strrstrLoop (haystack.content ++ [0]) (needle.content ++ [0]) needle.length (place + 1) =
      some (strrstrFrom haystack.content needle.content place) := by
  have compare {p : Nat} (here : p ≤ haystack.length) :
      strncmpIn needle.length ((haystack.content ++ [0]).drop p) (needle.content ++ [0]) =
        some (needle.content.isPrefixOf (haystack.content.drop p)) := by
    rw [List.drop_append_of_le_length here]
    exact strncmpIn_prefix needle.noNul _ _
  induction place with
  | zero =>
    rw [strrstrLoop, compare inside, strrstrFrom, List.drop_zero]
    cases needle.content.isPrefixOf haystack.content <;> rfl
  | succ place ih =>
    rw [strrstrLoop, compare inside, strrstrFrom]
    cases needle.content.isPrefixOf (haystack.content.drop (place + 1)) with
    | true => rfl
    | false => exact ih (Nat.le_of_succ_le inside)

/-- A string begins with a NUL where it is empty. -/
theorem first_byte (text : CString) :
    ∃ b, (text.content ++ [0])[0]? = some b ∧ (b = 0 ↔ text.content = []) := by
  have noNul := text.noNul
  cases same : text.content with
  | nil => exact ⟨0, rfl, by simp⟩
  | cons b rest =>
    rw [same] at noNul
    have some_ : b ≠ 0 := fun nul => noNul (nul ▸ List.mem_cons_self)
    exact ⟨b, rfl, by simp [some_]⟩

/-- `strrstr` reads nothing outside its strings. -/
theorem strrstrIn_eq (haystack needle : CString) :
    strrstrIn (haystack.content ++ [0]) (needle.content ++ [0]) =
      some (strrstr haystack.content needle.content) := by
  have ⟨b, begins, nul⟩ := first_byte haystack
  have ⟨c, begins', nul'⟩ := first_byte needle
  rw [strrstrIn, strrstr, begins, begins', strlenIn_string, strlenIn_string]
  simp only [Option.bind_eq_bind, Option.bind_some, nul, nul']
  by_cases nothing : haystack.content = []
  · rw [if_pos nothing, if_pos nothing]
    rfl
  by_cases empty : needle.content = []
  · rw [if_neg nothing, if_pos empty, if_neg nothing, if_pos empty]
    rfl
  rw [if_neg nothing, if_neg empty, if_neg nothing, if_neg empty]
  by_cases short : haystack.length < needle.length
  · have short' : haystack.content.length < needle.content.length := short
    rw [if_pos short, if_pos short']
    rfl
  · have long : ¬ haystack.content.length < needle.content.length := short
    rw [if_neg short, if_neg long]
    exact strrstrLoop_from haystack needle (Nat.sub_le haystack.length needle.length)

/-- `strrstr` reads nothing outside its strings and finds the last place where the needle occurs. -/
theorem strrstrIn_last (haystack needle : CString) (filled : needle.content ≠ []) :
    ∃ found, strrstrIn (haystack.content ++ [0]) (needle.content ++ [0]) = some found ∧
      (∀ place, found = some place ↔
        IsGreatest {place | needle.content <+: haystack.content.drop place} place) ∧
      (found = none ↔ ¬ needle.content <:+: haystack.content) := by
  refine ⟨_, strrstrIn_eq haystack needle, fun place => ?_, strrstr_none filled⟩
  rw [strrstr_iff filled]
  constructor
  · rintro ⟨occurs, last⟩
    refine ⟨occurs, fun other found => ?_⟩
    by_contra later
    exact last other (Nat.not_le.mp later) found
  · rintro ⟨occurs, greatest⟩
    refine ⟨occurs, fun later after found => ?_⟩
    have before := greatest found
    omega

/-- The last of two occurrences that overlap. -/
theorem strrstrIn_last_overlap :
    ∃ found, strrstrIn (bytes "aaa" ++ [0]) (bytes "aa" ++ [0]) = some found ∧
      (∀ place, found = some place ↔ IsGreatest {place | bytes "aa" <+: (bytes "aaa").drop place} place) ∧
      (found = none ↔ ¬ bytes "aa" <:+: bytes "aaa") :=
  strrstrIn_last (lit "aaa") (lit "aa") (by decide)

/-! ## Bytes -/

/-- A byte is first found where none is before it. -/
theorem idxOf?_first {front : List Byte} {b : Byte} (first : b ∉ front) (back : List Byte) :
    (front ++ b :: back).idxOf? b = some front.length := by
  have absent := List.idxOf?_eq_none_iff.mpr first
  rw [List.idxOf?] at absent ⊢
  rw [List.findIdx?_append, absent]
  simp [List.findIdx?_cons]

/-- Bytes are cut at the first of a kind in one way. -/
theorem first_unique {b : Byte} {one other left right : List Byte} (first : b ∉ one)
    (first' : b ∉ other) (same : one ++ b :: left = other ++ b :: right) :
    one = other ∧ left = right := by
  have place := idxOf?_first first left
  rw [same, idxOf?_first first' right, Option.some.injEq] at place
  have ⟨before, behind⟩ := List.append_inj same place.symm
  exact ⟨before, (List.cons.inj behind).2⟩

/-- `strrchr` finds a byte where none follows. -/
theorem strrchr_last (front : List Byte) {back : List Byte} {b : Byte} (last : b ∉ back) :
    strrchr (front ++ b :: back) b = some front.length := by
  have reversed : (front ++ b :: back).reverse = back.reverse ++ b :: front.reverse := by simp
  rw [strrchr, reversed, idxOf?_first (by simpa using last), Option.map_some,
    List.length_reverse, List.length_append, List.length_cons]
  congr 1
  omega

/-- `strrchr` finds nothing where the byte does not occur. -/
theorem strrchr_none {text : List Byte} {b : Byte} : strrchr text b = none ↔ b ∉ text := by
  rw [strrchr, Option.map_eq_none_iff, List.idxOf?_eq_none_iff, List.mem_reverse]

end Perdition
