import Perdition.Lib.Joined
import Perdition.Verif.Words

/-!
# Items of lists of capabilities

A list is its items joined by a delimiter. Where its text reads as these items and no others, an
item is deleted from it, and added where it is missing, as long as it is not the first one.
-/
namespace Perdition

open Lib.Joined

section Items

variable {needle delimiter : List Byte}

/-- The test for a delimiter or the end. -/
theorem follows_iff {back : List Byte} :
    (!back.isEmpty && !startsWith back delimiter) = false ↔ back = [] ∨ delimiter <+: back := by
  cases back with
  | nil => simp
  | cons b back => simp [startsWith, List.isPrefixOf_iff_prefix]

/-- The test for a delimiter before a place. -/
theorem precedes_iff {front : List Byte} (rest : List Byte) (room : delimiter.length ≤ front.length) :
    startsWith ((front ++ rest).drop (front.length - delimiter.length)) delimiter = true ↔
      ∃ before, front = before ++ delimiter := by
  have split : (front ++ rest).drop (front.length - delimiter.length) =
      front.drop (front.length - delimiter.length) ++ rest :=
    List.drop_append_of_le_length (by omega)
  have size : (front.drop (front.length - delimiter.length)).length = delimiter.length := by
    rw [List.length_drop]
    omega
  rw [split, startsWith, List.isPrefixOf_iff_prefix]
  constructor
  · rintro ⟨more, same⟩
    have inside := (List.append_inj same size.symm).1
    have whole := List.take_append_drop (front.length - delimiter.length) front
    rw [← inside] at whole
    exact ⟨_, whole.symm⟩
  · rintro ⟨before, same⟩
    have last : front.drop (front.length - delimiter.length) = delimiter := by
      rw [same, List.length_append, Nat.add_sub_cancel, List.drop_left]
    rw [last]
    exact List.prefix_append _ _

/-- What `strstr` finds from a place on splits the text. -/
theorem strstr_split {haystack : List Byte} {start place : Nat}
    (found : strstr (haystack.drop start) needle = some place) :
    ∃ front back, front ++ needle ++ back = haystack ∧
      (needle ≠ [] → front.length = start + place) ∧
      ∀ front' back', front' ++ needle ++ back' = haystack → start ≤ front'.length →
        start + place ≤ front'.length := by
  have ⟨back, same⟩ := strstr_occurs found
  rw [List.drop_drop] at same
  refine ⟨haystack.take (start + place), back, ?_, fun filled => ?_,
    fun front' back' occurs later => ?_⟩
  · rw [List.append_assoc, same, List.take_append_drop]
  · have ⟨_, room⟩ := strstr_within filled found
    rw [List.length_take]
    omega
  · have inside : (front'.drop start) ++ needle ++ back' = haystack.drop start := by
      rw [← occurs, List.append_assoc, List.append_assoc, List.drop_append_of_le_length later]
    have first := strstr_first found inside
    rw [List.length_drop] at first
    omega

/-- No item that is the needle begins before this place. -/
def From (delimiter needle : List Byte) (items : List (List Byte)) (start : Nat) : Prop :=
  ∀ before rest, items = before ++ needle :: rest → before ≠ [] →
    start ≤ (List.intercalate delimiter before ++ delimiter).length

/-- Where the needle does not occur from a place on, and no item that is the needle begins before
it, none is. -/
theorem From.absent {items : List (List Byte)} {start : Nat}
    (from_ : From delimiter needle items start) (other : items.head? ≠ some needle)
    (none_ : strstr ((List.intercalate delimiter items).drop start) needle = none) :
    needle ∉ items := by
  intro member
  have ⟨before, rest, split⟩ := List.append_of_mem member
  have some_ : before ≠ [] := by
    rintro rfl
    exact other (by rw [split]; rfl)
  have later := from_ before rest split some_
  apply strstr_absent.mp none_
  rw [split, join_item _ some_, List.append_assoc, List.append_assoc,
    ← List.append_assoc _ delimiter, List.drop_append_of_le_length later]
  exact ⟨_, _, List.append_assoc _ _ _⟩

/-- What is found without a delimiter before it and a delimiter or the end behind it is no item, and
the items that are the needle begin behind it. -/
theorem From.passed {items : List (List Byte)} {start place : Nat}
    (from_ : From delimiter needle items start) (reads : Reads delimiter needle items)
    {front back : List Byte}
    (whole : front ++ needle ++ back = List.intercalate delimiter items)
    (here : front.length = start + place)
    (leftmost : ∀ front' back', front' ++ needle ++ back' = List.intercalate delimiter items →
      start ≤ front'.length → start + place ≤ front'.length)
    (other : ¬ ((∃ before, front = before ++ delimiter) ∧ (back = [] ∨ delimiter <+: back))) :
    From delimiter needle items (start + place + needle.length) := by
  intro before rest split some_
  have later := from_ before rest split some_
  have joined := join_item delimiter some_ needle rest
  rw [← split] at joined
  have reached := leftmost _ _ joined.symm later
  have apart := reads.apart before rest split some_ front back whole
  rcases Nat.lt_or_ge front.length (List.intercalate delimiter before ++ delimiter).length with
    early | not_
  · have ends := apart early
    rw [List.length_append, here] at ends
    exact ends
  · -- it would be the item itself
    exfalso
    apply other
    have same := List.append_inj
      ((List.append_assoc _ _ _).symm.trans (whole.trans joined) |>.trans (List.append_assoc _ _ _))
      (by omega)
    refine ⟨⟨_, same.1⟩, ?_⟩
    have tail := List.append_cancel_left same.2
    rw [tail]
    exact behind_begins delimiter rest

/-- Where an item that is the needle is left out, those behind it begin where it was or later. -/
theorem From.without {before rest : List (List Byte)} {start : Nat} (some_ : before ≠ [])
    (from_ : From delimiter needle (before ++ needle :: rest) start) (filled : needle ≠ [])
    (leftmost : ∀ front' back', front' ++ needle ++ back' =
      List.intercalate delimiter (before ++ needle :: rest) → start ≤ front'.length →
      (List.intercalate delimiter before ++ delimiter).length ≤ front'.length) :
    From delimiter needle (before ++ rest) (List.intercalate delimiter before).length := by
  intro front back split some'
  rcases List.append_eq_append_iff.mp split with ⟨x, longer, _⟩ | ⟨x, shorter, _⟩
  · rw [longer, join_append some_, List.length_append, List.length_append]
    omega
  · cases x with
    | nil =>
      rw [shorter, List.append_nil, List.length_append]
      omega
    | cons w x =>
      have same : w = needle := by
        have heads := congrArg List.head? ‹needle :: back = (w :: x) ++ rest›
        exact (Option.some.inj heads).symm
      rw [same] at shorter
      have earlier : before ++ needle :: rest = front ++ needle :: (x ++ needle :: rest) := by
        rw [shorter]
        simp
      have later := from_ front _ earlier some'
      have joined := join_item delimiter some' needle (x ++ needle :: rest)
      rw [← earlier] at joined
      have reached := leftmost _ _ joined.symm later
      have long := List.length_pos_iff.mpr filled
      rw [shorter, join_item _ some', List.length_append, List.length_append,
        List.length_append] at reached
      rw [List.length_append] at reached
      omega

/-- The test before a place: it is not at the start, and no delimiter stands before it. -/
theorem unpreceded_iff (delimiter front rest : List Byte) :
    (front.length < delimiter.length ∨
      (!startsWith ((front ++ rest).drop (front.length - delimiter.length)) delimiter) = true) ↔
      ¬ ∃ before, front = before ++ delimiter := by
  rcases Nat.lt_or_ge front.length delimiter.length with short | room
  · refine iff_of_true (.inl short) ?_
    rintro ⟨before, same⟩
    rw [same, List.length_append] at short
    omega
  · rw [← precedes_iff rest room]
    simp [Nat.not_lt.mpr room]

/-- The loop of `str_delete_substring` leaves the items that are not the needle. -/
theorem deleteSubstring_items (filled : needle ≠ []) (some_ : delimiter ≠ []) : ∀ (rounds : Nat)
    {items : List (List Byte)} {start : Nat}, Clear delimiter needle items →
      items.head? ≠ some needle → From delimiter needle items start →
      start ≤ (List.intercalate delimiter items).length →
      (List.intercalate delimiter items).length < rounds + start →
      deleteSubstring needle delimiter rounds (List.intercalate delimiter items) start =
        some (List.intercalate delimiter (items.filter (· ≠ needle))) := by
  have long := List.length_pos_iff.mpr filled
  have long' := List.length_pos_iff.mpr some_
  intro rounds
  induction rounds with
  | zero =>
    intro items start clear other from_ inside enough
    omega
  | succ rounds ih =>
    intro items start clear other from_ inside enough
    rw [deleteSubstring]
    cases found : strstr ((List.intercalate delimiter items).drop start) needle with
    | none =>
      have absent := from_.absent other found
      have kept : items.filter (· ≠ needle) = items := by
        rw [List.filter_eq_self]
        intro w member
        simpa using fun same : w = needle => absent (same ▸ member)
      rw [kept]
    | some place =>
      obtain ⟨front, back, whole, size, leftmost⟩ := strstr_split found
      have here := size filled
      have reads := clear.reads
      have room : (List.intercalate delimiter items).length =
          front.length + needle.length + back.length := by
        rw [← whole, List.length_append, List.length_append]
      have rest : (List.intercalate delimiter items).drop (start + place + needle.length) =
          back := by
        rw [← whole, ← here, ← List.length_append, List.drop_left]
      have skips : ¬ ((∃ before, front = before ++ delimiter) ∧ (back = [] ∨ delimiter <+: back)) →
          deleteSubstring needle delimiter rounds (List.intercalate delimiter items)
            (start + place + needle.length) =
              some (List.intercalate delimiter (items.filter (· ≠ needle))) := fun not_ =>
        ih clear other (from_.passed reads whole here leftmost not_) (by omega) (by omega)
      have before_ := unpreceded_iff delimiter front (needle ++ back)
      rw [← List.append_assoc, whole, here] at before_
      dsimp only
      rw [rest]
      by_cases bounded : (∃ before, front = before ++ delimiter) ∧ (back = [] ∨ delimiter <+: back)
      · obtain ⟨⟨before, preceded⟩, follows⟩ := bounded
        obtain ⟨kept, later, split, some', joined⟩ := reads.later before back
          (by rw [← preceded]; exact whole) follows
        have place_ : start + place = before.length + delimiter.length := by
          rw [← here, preceded, List.length_append]
        have taken : (List.intercalate delimiter items).take (start + place - delimiter.length) =
            before := by
          rw [← whole, preceded, List.append_assoc, List.append_assoc, place_, Nat.add_sub_cancel,
            List.take_left]
        have tail : back = behind delimiter later := by
          have text := join_item delimiter some' needle later
          rw [← split, ← whole, joined, ← preceded] at text
          exact List.append_cancel_left text
        have left : List.intercalate delimiter (kept ++ later) = before ++ back := by
          rw [join_append some', joined, tail]
        have few : Fewer needle (kept ++ later) items := split ▸ Fewer.one _ kept later
        have head : (kept ++ later).head? = items.head? := by
          rw [split]
          cases kept with
          | nil => exact absurd rfl some'
          | cons w kept => rfl
        have next : From delimiter needle (kept ++ later) before.length := by
          have reached := from_
          rw [split] at reached leftmost
          rw [← joined] at place_ ⊢
          refine reached.without some' filled fun front' back' occurs later' => ?_
          rw [List.length_append, ← place_]
          exact leftmost front' back' occurs later'
        have shorter : (List.intercalate delimiter (kept ++ later)).length =
            before.length + back.length := by
          rw [left, List.length_append]
        have same := ih (clear.without few) (head ▸ other) next (by omega) (by omega)
        rw [if_neg fun test => before_.mp test.2 ⟨before, preceded⟩,
          if_neg (Bool.eq_false_iff.mp (follows_iff.mpr follows)), if_neg (by omega), taken, ← left,
          place_, Nat.add_sub_cancel, same, few.filter]
      · by_cases test : start + place ≠ 0 ∧ (start + place < delimiter.length ∨
            (!startsWith ((List.intercalate delimiter items).drop
              (start + place - delimiter.length)) delimiter) = true)
        · rw [if_pos test]
          exact skips bounded
        · rw [if_neg test]
          by_cases follows : (!back.isEmpty && !startsWith back delimiter) = true
          · rw [if_pos follows]
            exact skips bounded
          · have ends := follows_iff.mp (Bool.eq_false_iff.mpr follows)
            exfalso
            by_cases zero : start + place = 0
            · have empty_ : front = [] := List.length_eq_zero_iff.mp (by omega)
              rw [empty_, List.nil_append] at whole
              exact other (reads.first back whole ends)
            · exact bounded ⟨by
                by_contra none_
                exact test ⟨zero, before_.mpr none_⟩, ends⟩

/-- No occurrence of the needle begins within the length of a delimiter from the start. -/
def NoEarly (delimiter needle text : List Byte) : Prop :=
  ∀ front back, front ++ needle ++ back = text → delimiter.length ≤ front.length

/-- The loop of `str_append_substring_if_missing` finds the needle exactly if it is an item. -/
theorem findSubstring_items (filled : needle ≠ []) {items : List (List Byte)}
    (reads : Reads delimiter needle items) (other : items.head? ≠ some needle)
    (inside_ : NoEarly delimiter needle (List.intercalate delimiter items)) :
    ∀ (rounds : Nat) {start : Nat}, From delimiter needle items start →
      start ≤ (List.intercalate delimiter items).length →
      (List.intercalate delimiter items).length < rounds + start →
      findSubstring (List.intercalate delimiter items) needle delimiter rounds start =
        some (decide (needle ∈ items)) := by
  have long := List.length_pos_iff.mpr filled
  intro rounds
  induction rounds with
  | zero =>
    intro start from_ inside enough
    omega
  | succ rounds ih =>
    intro start from_ inside enough
    rw [findSubstring]
    cases found : strstr ((List.intercalate delimiter items).drop start) needle with
    | none =>
      have absent := from_.absent other found
      simp [absent]
    | some place =>
      obtain ⟨front, back, whole, size, leftmost⟩ := strstr_split found
      have here := size filled
      have late := inside_ front back whole
      have room : (List.intercalate delimiter items).length =
          front.length + needle.length + back.length := by
        rw [← whole, List.length_append, List.length_append]
      have rest : (List.intercalate delimiter items).drop (start + place + needle.length) =
          back := by
        rw [← whole, ← here, ← List.length_append, List.drop_left]
      have skips : ¬ ((∃ before, front = before ++ delimiter) ∧ (back = [] ∨ delimiter <+: back)) →
          findSubstring (List.intercalate delimiter items) needle delimiter rounds
            (start + place + needle.length) = some (decide (needle ∈ items)) := fun not_ =>
        ih (from_.passed reads whole here leftmost not_) (by omega) (by omega)
      have before_ := precedes_iff (needle ++ back) late
      rw [← List.append_assoc, whole, here] at before_
      dsimp only
      rw [rest, if_neg (by omega)]
      by_cases preceded : ∃ before, front = before ++ delimiter
      · rw [before_.mpr preceded, Bool.not_true, if_neg (by decide)]
        by_cases follows : (!back.isEmpty && !startsWith back delimiter) = true
        · rw [if_pos follows]
          exact skips fun both =>
            absurd (follows_iff.mpr both.2) (by rw [follows]; decide)
        · have ends := follows_iff.mp (Bool.eq_false_iff.mpr follows)
          obtain ⟨before, same⟩ := preceded
          obtain ⟨kept, later, split, _, _⟩ := reads.later before back
            (by rw [← same]; exact whole) ends
          have member : needle ∈ items := by
            rw [split]
            exact List.mem_append_right _ List.mem_cons_self
          rw [if_neg follows, decide_eq_true member]
      · have not_ : startsWith ((List.intercalate delimiter items).drop
            (start + place - delimiter.length)) delimiter = false :=
          Bool.eq_false_iff.mpr fun starts => preceded (before_.mp starts)
        rw [not_, Bool.not_false, if_pos rfl]
        exact skips fun both => preceded both.1

/-- A search that stays within the text finds no occurrence close to its start. -/
theorem findSubstring_noEarly {text : List Byte} {rounds : Nat} {listed : Bool}
    (found : findSubstring text needle delimiter (rounds + 1) 0 = some listed) :
    NoEarly delimiter needle text := by
  intro front back whole
  have ⟨place, first, early⟩ := strstr_early needle front back
  rw [whole] at first
  by_contra short
  rw [findSubstring, List.drop_zero, first] at found
  simp only [Nat.zero_add] at found
  rw [if_pos (by omega)] at found
  cases found

/-- At the start nothing was passed. -/
theorem From.zero (items : List (List Byte)) : From delimiter needle items 0 :=
  fun _ _ _ _ => Nat.zero_le _

end Items

/-! ## Deleting -/

/-- `str_delete_substring` leaves the items that are not the needle, and stays within its string. -/
def Deletes (delimiter needle haystack : CString) (items : List (List Byte)) : Prop :=
  ∃ left, strDeleteSubstring haystack needle delimiter = some left ∧
    left.content = List.intercalate delimiter.content (items.filter (· ≠ needle.content))

section Deleting

variable {delimiter needle haystack : CString} {items : List (List Byte)}

theorem deletes_clear (some_ : delimiter.content ≠ []) (filled : needle.content ≠ [])
    (joined : haystack.content = List.intercalate delimiter.content items)
    (other : items.head? ≠ some needle.content)
    (clear : Clear delimiter.content needle.content items) :
    Deletes delimiter needle haystack items := by
  have deleted := deleteSubstring_items filled some_ (haystack.length + 1) clear other
    (From.zero items) (Nat.zero_le _) (by rw [← joined]; exact Nat.lt_succ_self _)
  have noNul : 0 ∉ List.intercalate delimiter.content (items.filter (· ≠ needle.content)) := by
    intro nul
    rcases mem_join nul with between | ⟨w, member, inside⟩
    · exact delimiter.noNul between
    · refine haystack.noNul (joined ▸ mem_join_of_mem (List.mem_filter.mp member).1 inside)
  refine ⟨cstr _, ?_, cstr_content noNul⟩
  rw [strDeleteSubstring, joined, deleted, Option.map_some]

/-- A needle that is the first item is deleted out of bounds. -/
theorem deletes_first (some_ : delimiter.content ≠ [])
    (joined : haystack.content = List.intercalate delimiter.content items)
    (first : items.head? = some needle.content) :
    strDeleteSubstring haystack needle delimiter = none := by
  cases items with
  | nil => cases first
  | cons w items =>
    rw [List.head?_cons, Option.some.injEq] at first
    have long := List.length_pos_iff.mpr some_
    have text : haystack.content = needle.content ++ behind delimiter.content items := by
      rw [joined, first, join_cons]
    have found : strstr haystack.content needle.content = some 0 := by
      rw [text]
      exact strstr_start (List.prefix_append _ _)
    have rest : haystack.content.drop (0 + needle.content.length) =
        behind delimiter.content items := by
      rw [text, Nat.zero_add, List.drop_left]
    have follows := follows_iff.mpr (behind_begins delimiter.content items)
    rw [strDeleteSubstring, deleteSubstring, List.drop_zero, found]
    dsimp only
    rw [rest, Nat.add_zero, if_neg fun test => test.1 rfl, follows, if_neg (by decide),
      if_pos long]
    rfl

end Deleting

/-- A list between whose items there is a third space: the needle is no item and is deleted. -/
example : strDeleteSubstring (lit "a   b") (lit "b") (lit "  ") = some (lit "a ") := by
  decide +kernel

/-! ## Adding -/

/-- The list with the needle, which is added at its end where it is missing. -/
def withItem (needle : List Byte) (items : List (List Byte)) : List (List Byte) :=
  if needle ∈ items then items else items ++ [needle]

theorem mem_withItem (needle : List Byte) (items : List (List Byte)) :
    needle ∈ withItem needle items := by
  unfold withItem
  split
  · assumption
  · simp

theorem withItem_filter (needle : List Byte) (items : List (List Byte)) :
    (withItem needle items).filter (· ≠ needle) = items.filter (· ≠ needle) := by
  unfold withItem
  split
  · rfl
  · simp

/-- `str_append_substring_if_missing` adds an item where it is missing and stays within its string;
doing it again changes nothing, and deleting the item leaves the list without it. -/
def Adds (delimiter needle haystack : CString) (items : List (List Byte)) : Prop :=
  ∃ added, strAppendSubstringIfMissing haystack needle delimiter = some added ∧
    added.content = List.intercalate delimiter.content (withItem needle.content items) ∧
    strAppendSubstringIfMissing added needle delimiter = some added ∧
    ∃ left, strDeleteSubstring added needle delimiter = some left ∧
      left.content = List.intercalate delimiter.content (items.filter (· ≠ needle.content))

section Adding

variable {delimiter needle haystack : CString} {items : List (List Byte)}

/-- The search tells what is returned. -/
theorem strAppendSubstringIfMissing_eq {listed : Bool}
    (found : findSubstring haystack.content needle.content delimiter.content
      (haystack.length + 1) 0 = some listed) :
    strAppendSubstringIfMissing haystack needle delimiter =
      some (if listed then haystack else haystack ++ delimiter ++ needle) := by
  rw [strAppendSubstringIfMissing, found]
  cases listed <;> rfl

/-- Where it is added without looking before the list, no occurrence is close to its start. -/
theorem Adds.noEarly (adds : Adds delimiter needle haystack items) :
    NoEarly delimiter.content needle.content
      (List.intercalate delimiter.content (withItem needle.content items)) := by
  have ⟨added, _, joined, again, _⟩ := adds
  have ⟨listed, found, _⟩ := Option.bind_eq_some_iff.mp again
  rw [← joined]
  exact findSubstring_noEarly found

/-- A list with nothing close to its start does not begin with the needle. -/
theorem NoEarly.head {needle delimiter : List Byte} {items : List (List Byte)}
    (noEarly : NoEarly delimiter needle (List.intercalate delimiter items))
    (some_ : delimiter ≠ []) : items.head? ≠ some needle := by
  intro first
  have long := List.length_pos_iff.mpr some_
  cases items with
  | nil => cases first
  | cons w items =>
    rw [List.head?_cons, Option.some.injEq] at first
    have short := noEarly [] (behind delimiter items) (by rw [first, join_cons]; rfl)
    rw [List.length_nil] at short
    omega

/-- The search of a list that reads as its items tells whether the needle is one. -/
theorem append_clear (some_ : delimiter.content ≠ []) (filled : needle.content ≠ [])
    (joined : haystack.content = List.intercalate delimiter.content items)
    (reads : Reads delimiter.content needle.content items)
    (noEarly : NoEarly delimiter.content needle.content
      (List.intercalate delimiter.content items)) :
    strAppendSubstringIfMissing haystack needle delimiter =
      some (if needle.content ∈ items then haystack else haystack ++ delimiter ++ needle) := by
  have found := findSubstring_items filled reads (noEarly.head some_) noEarly
    (haystack.length + 1) (From.zero items) (Nat.zero_le _)
    (by rw [← joined]; exact Nat.lt_succ_self _)
  rw [← joined] at found
  rw [strAppendSubstringIfMissing_eq found]
  congr 1
  by_cases member : needle.content ∈ items <;> simp [member]

/-- A needle is added to a list where it is missing, and what follows from it holds, where no
occurrence is close to the start of the list with it and that list reads as its items. -/
theorem adds_clear (some_ : delimiter.content ≠ []) (filled : needle.content ≠ [])
    (joined : haystack.content = List.intercalate delimiter.content items)
    (noEarly : NoEarly delimiter.content needle.content
      (List.intercalate delimiter.content (withItem needle.content items)))
    (clear : Clear delimiter.content needle.content (withItem needle.content items)) :
    Adds delimiter needle haystack items := by
  obtain ⟨reads, early⟩ : Reads delimiter.content needle.content items ∧
      NoEarly delimiter.content needle.content (List.intercalate delimiter.content items) := by
    by_cases member : needle.content ∈ items
    · rw [withItem, if_pos member] at clear noEarly
      exact ⟨clear.reads, noEarly⟩
    · rw [withItem, if_neg member] at clear noEarly
      have few := Fewer.one needle.content items []
      rw [List.append_nil] at few
      have items_ : items ≠ [] := by
        rintro rfl
        exact noEarly.head some_ rfl
      refine ⟨(clear.without few).reads, fun front back whole => ?_⟩
      apply noEarly front (back ++ behind delimiter.content [needle.content])
      rw [join_append items_, ← whole]
      simp only [List.append_assoc]
  have first := append_clear some_ filled joined reads early
  have added : (if needle.content ∈ items then haystack
      else haystack ++ delimiter ++ needle).content =
        List.intercalate delimiter.content (withItem needle.content items) := by
    unfold withItem
    by_cases member : needle.content ∈ items
    · rw [if_pos member, if_pos member, joined]
    · have items_ : items ≠ [] := by
        rintro rfl
        rw [withItem, if_neg member] at noEarly
        exact noEarly.head some_ rfl
      rw [if_neg member, if_neg member, join_append items_, behind, if_neg (by simp),
        List.intercalate_singleton, ← joined]
      exact List.append_assoc _ _ _
  have again := append_clear some_ filled added clear.reads noEarly
  rw [if_pos (mem_withItem _ _)] at again
  obtain ⟨left, deleted, others⟩ := deletes_clear some_ filled added (noEarly.head some_) clear
  rw [withItem_filter] at others
  exact ⟨_, first, added, again, left, deleted, others⟩

end Adding

end Perdition
