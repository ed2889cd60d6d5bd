import Mathlib.Data.List.Infix

/-!
# Lists joined by a separator

When a word that is looked for in the joined text, after a separator and before another, is found
at the items that are the word and nowhere else.
-/
namespace Perdition.Lib.Joined

variable {α : Type} {sep word : List α} {items fewer : List (List α)}

/-! ## Joining -/

/-- What follows an item in the joined text. -/
def behind (sep : List α) (items : List (List α)) : List α :=
  if items = [] then [] else sep ++ List.intercalate sep items

theorem join_cons (sep w : List α) (items : List (List α)) :
    List.intercalate sep (w :: items) = w ++ behind sep items := by
  unfold behind
  split
  · rename_i none_
    rw [none_, List.intercalate_singleton, List.append_nil]
  · rename_i some_
    rw [List.intercalate_cons_of_ne_nil some_, List.append_assoc]

/-- Two lists are joined by a separator. -/
theorem join_append {before : List (List α)} (some_ : before ≠ []) (items : List (List α)) :
    List.intercalate sep (before ++ items) = List.intercalate sep before ++ behind sep items := by
  induction before with
  | nil => exact absurd rfl some_
  | cons w before ih =>
    rw [List.cons_append, join_cons, join_cons]
    by_cases more : before = []
    · rw [more, List.nil_append]
      simp [behind]
    · have whole : before ++ items ≠ [] := fun none_ => more (List.append_eq_nil_iff.mp none_).1
      rw [behind, if_neg whole, ih more]
      simp [behind, more]

/-- An item stands after a separator and before another or the end. -/
theorem join_item (sep : List α) {before : List (List α)} (some_ : before ≠ []) (word : List α)
    (items : List (List α)) :
    List.intercalate sep (before ++ word :: items) =
      List.intercalate sep before ++ sep ++ word ++ behind sep items := by
  rw [join_append some_, behind, if_neg (List.cons_ne_nil _ _), join_cons]
  simp only [List.append_assoc]

/-- What follows an item is nothing, or a separator first. -/
theorem behind_begins (sep : List α) (items : List (List α)) :
    behind sep items = [] ∨ sep <+: behind sep items := by
  unfold behind
  split
  · exact .inl rfl
  · exact .inr (List.prefix_append _ _)

/-- The elements of an item are in the joined text. -/
theorem mem_join_of_mem {w : List α} (member : w ∈ items) {x : α} (inside : x ∈ w) :
    x ∈ List.intercalate sep items := by
  induction items with
  | nil => cases member
  | cons v items ih =>
    rw [join_cons]
    rcases List.mem_cons.mp member with same | later
    · exact List.mem_append_left _ (same ▸ inside)
    · rw [behind, if_neg (List.ne_nil_of_mem later)]
      exact List.mem_append_right _ (List.mem_append_right _ (ih later))

/-- The joined text has the elements of its items and of the separator. -/
theorem mem_join {x : α} (inside : x ∈ List.intercalate sep items) :
    x ∈ sep ∨ ∃ w ∈ items, x ∈ w := by
  induction items with
  | nil => cases inside
  | cons w items ih =>
    rw [join_cons] at inside
    rcases List.mem_append.mp inside with first | later
    · exact .inr ⟨w, List.mem_cons_self, first⟩
    · unfold behind at later
      split at later
      · cases later
      · rcases List.mem_append.mp later with between | others
        · exact .inl between
        · exact (ih others).imp_right fun ⟨v, member, deep⟩ =>
            ⟨v, List.mem_cons_of_mem _ member, deep⟩

/-! ## Reading words -/

/-- A word is found in the joined text where it is an item and nowhere else. -/
structure Reads (sep word : List α) (items : List (List α)) : Prop where
  /-- At the start of the text, before a separator or the end, it is the first item. -/
  first : ∀ back, word ++ back = List.intercalate sep items → (back = [] ∨ sep <+: back) →
    items.head? = some word
  /-- After a separator, and before another or the end, it is a later item. -/
  later : ∀ front back, front ++ sep ++ word ++ back = List.intercalate sep items →
    (back = [] ∨ sep <+: back) → ∃ before rest, items = before ++ word :: rest ∧ before ≠ [] ∧
      List.intercalate sep before = front
  /-- Where it is a later item, it does not begin before the item and reach into it. -/
  apart : ∀ before rest, items = before ++ word :: rest → before ≠ [] → ∀ front back,
    front ++ word ++ back = List.intercalate sep items →
    front.length < (List.intercalate sep before ++ sep).length →
      (front ++ word).length ≤ (List.intercalate sep before ++ sep).length

/-- The list with some of its items that are the word left out. -/
inductive Fewer (word : List α) : List (List α) → List (List α) → Prop
  /-- Nothing is left of nothing. -/
  | nil : Fewer word [] []
  /-- An item is kept. -/
  | keep (w : List α) {fewer items : List (List α)} (rest : Fewer word fewer items) :
    Fewer word (w :: fewer) (w :: items)
  /-- The word is left out. -/
  | drop {fewer items : List (List α)} (rest : Fewer word fewer items) :
    Fewer word fewer (word :: items)

namespace Fewer

theorem refl (word : List α) (items : List (List α)) : Fewer word items items := by
  induction items with
  | nil => exact .nil
  | cons w items ih => exact .keep w ih

theorem trans {least : List (List α)} (less : Fewer word least fewer)
    (few : Fewer word fewer items) : Fewer word least items := by
  induction few generalizing least with
  | nil => exact less
  | keep w rest ih =>
    cases less with
    | keep _ less => exact .keep w (ih less)
    | drop less => exact .drop (ih less)
  | drop rest ih => exact .drop (ih less)

/-- One item that is the word is left out. -/
theorem one (word : List α) (before rest : List (List α)) :
    Fewer word (before ++ rest) (before ++ word :: rest) := by
  induction before with
  | nil => exact .drop (refl word rest)
  | cons w before ih => exact .keep w ih

theorem subset (few : Fewer word fewer items) : ∀ w ∈ fewer, w ∈ items := by
  induction few with
  | nil => exact fun w member => member
  | keep v rest ih =>
    intro w member
    rcases List.mem_cons.mp member with same | later
    · exact same ▸ List.mem_cons_self
    · exact List.mem_cons_of_mem _ (ih w later)
  | drop rest ih => exact fun w member => List.mem_cons_of_mem _ (ih w member)

/-- The other items are the same. -/
theorem filter [DecidableEq α] (few : Fewer word fewer items) :
    fewer.filter (· ≠ word) = items.filter (· ≠ word) := by
  induction few with
  | nil => rfl
  | keep w rest ih => rw [List.filter_cons, List.filter_cons, ih]
  | drop rest ih => simpa using ih

end Fewer

/-- The word is found where it is an item and nowhere else, also where it was left out before. -/
def Clear (sep word : List α) (items : List (List α)) : Prop :=
  ∀ fewer, Fewer word fewer items → Reads sep word fewer

theorem Clear.reads (clear : Clear sep word items) : Reads sep word items :=
  clear items (Fewer.refl word items)

theorem Clear.without (clear : Clear sep word items) (few : Fewer word fewer items) :
    Clear sep word fewer :=
  fun least less => clear least (less.trans few)

/-! ## Words that are told from the separator -/

/-- A word without the separator in it, and with none of its elements at either end. -/
structure Separate (sep w : List α) : Prop where
  /-- There is a word. -/
  filled : w ≠ []
  /-- The separator is not in it. -/
  free : ¬ sep <:+: w
  /-- It does not begin with an element of the separator. -/
  first : ∀ x ∈ w.head?, x ∉ sep
  /-- It does not end with one. -/
  last : ∀ x ∈ w.getLast?, x ∉ sep

theorem Separate.not_front {w c d : List α} (separate : Separate sep w) (some_ : c ≠ [])
    (begins : w = c ++ d) (inside : ∀ x ∈ c, x ∈ sep) : False := by
  cases c with
  | nil => exact some_ rfl
  | cons x c =>
    have head : x ∈ w.head? := by rw [begins]; rfl
    exact separate.first x head (inside x List.mem_cons_self)

theorem Separate.not_back {w c d : List α} (separate : Separate sep w) (some_ : d ≠ [])
    (ends : w = c ++ d) (inside : ∀ x ∈ d, x ∈ sep) : False := by
  have last : d.getLast some_ ∈ w.getLast? := by
    rw [ends, List.getLast?_append_of_ne_nil _ some_, List.getLast?_eq_some_getLast some_]
    rfl
  exact separate.last _ last (inside _ (List.getLast_mem some_))

/-- A separator cannot begin within a word and end behind it. -/
theorem Separate.no_overlap {w front rest back : List α} (separate : Separate sep w)
    (same : front ++ (sep ++ back) = w ++ rest) (short : front.length < w.length) : False := by
  rcases List.append_eq_append_iff.mp same with ⟨c, whole, tail⟩ | ⟨c, long, tail⟩
  · have some_ : c ≠ [] := by
      rintro rfl
      rw [whole, List.append_nil] at short
      exact Nat.lt_irrefl _ short
    rcases List.append_eq_append_iff.mp tail with ⟨d, ends, _⟩ | ⟨d, ends, _⟩
    · exact separate.free ⟨front, d, by rw [whole, ends, List.append_assoc]⟩
    · exact separate.not_back some_ whole fun x member => ends ▸ List.mem_append_left _ member
  · rw [long, List.length_append] at short
    omega

/-- In a text whose first item is such a word, a separator is the one after it or stands later. -/
theorem Separate.place {w front rest back : List α} (separate : Separate sep w)
    (head : ∀ x ∈ rest.head?, x ∉ sep)
    (same : front ++ (sep ++ back) = w ++ (sep ++ rest)) :
    (front = w ∧ back = rest) ∨
      ∃ front', front = w ++ (sep ++ front') ∧ front' ++ (sep ++ back) = rest := by
  by_cases short : front.length < w.length
  · exact (separate.no_overlap same short).elim
  rcases List.append_eq_append_iff.mp same with ⟨c, whole, tail⟩ | ⟨c, long, tail⟩
  · have none_ : c = [] := by
      rw [whole, List.length_append] at short
      exact List.length_eq_zero_iff.mp (by omega)
    rw [none_, List.append_nil] at whole
    rw [none_, List.nil_append] at tail
    exact .inl ⟨whole.symm, List.append_cancel_left tail⟩
  · by_cases none_ : c = []
    · rw [none_, List.append_nil] at long
      rw [none_, List.nil_append] at tail
      exact .inl ⟨long, (List.append_cancel_left tail).symm⟩
    rcases List.append_eq_append_iff.mp tail with ⟨d, begins, later⟩ | ⟨d, begins, later⟩
    · exact .inr ⟨d, by rw [long, begins], later.symm⟩
    · -- the separator would begin within the one after the word and end in the next word
      rcases List.append_eq_append_iff.mp later with ⟨e, ends, more⟩ | ⟨e, ends, more⟩
      · have size := congrArg List.length begins
        have size' := congrArg List.length ends
        have long' := List.length_pos_iff.mpr none_
        rw [List.length_append] at size size'
        omega
      · have some' : e ≠ [] := by
          have size := congrArg List.length begins
          have size' := congrArg List.length ends
          have long' := List.length_pos_iff.mpr none_
          rw [List.length_append] at size size'
          exact List.ne_nil_of_length_pos (by omega)
        cases e with
        | nil => exact absurd rfl some'
        | cons x e =>
          have first : x ∈ rest.head? := by rw [more]; rfl
          exact absurd (ends ▸ List.mem_append_right d List.mem_cons_self) (head x first)

/-- What the joined text of such words begins with is no element of the separator. -/
theorem head_join {w : List α} (separate : Separate sep w) (items : List (List α)) :
    ∀ x ∈ (List.intercalate sep (w :: items)).head?, x ∉ sep := by
  intro x first
  rw [join_cons] at first
  cases w with
  | nil => exact absurd rfl separate.filled
  | cons y w =>
    rw [List.cons_append, List.head?_cons] at first
    exact separate.first x (by rwa [List.head?_cons])

section Separate

variable (word_ : Separate sep word)
include word_

/-- The word at the start of a text of such words is the first of them. -/
theorem separate_first {w : List α} (separate : Separate sep w) {back : List α}
    (same : word ++ back = w ++ behind sep items) (follows : back = [] ∨ sep <+: back) :
    w = word := by
  rcases follows with none_ | ⟨more, begins⟩
  · rw [none_, List.append_nil] at same
    unfold behind at same
    split at same
    · rw [List.append_nil] at same
      exact same.symm
    · exact absurd ⟨w, _, by rw [List.append_assoc]; exact same.symm⟩ word_.free
  · unfold behind at same
    rw [← begins] at same
    split at same
    · rw [List.append_nil] at same
      exact absurd ⟨word, more, by rw [List.append_assoc]; exact same⟩ separate.free
    · by_cases short : word.length < w.length
      · exact (separate.no_overlap same short).elim
      · by_cases long : w.length < word.length
        · exact (word_.no_overlap same.symm long).elim
        · exact (List.append_inj same (by omega)).1.symm

theorem separate_later (filled : sep ≠ []) (separate : ∀ w ∈ items, Separate sep w)
    {front back : List α} (same : front ++ (sep ++ (word ++ back)) = List.intercalate sep items)
    (follows : back = [] ∨ sep <+: back) :
    ∃ before rest, items = before ++ word :: rest ∧ before ≠ [] ∧
      List.intercalate sep before = front := by
  induction items generalizing front with
  | nil =>
    have size := congrArg List.length same
    have long := List.length_pos_iff.mpr filled
    simp only [List.length_append, List.intercalate_nil, List.length_nil] at size
    omega
  | cons w items ih =>
    have first := separate w List.mem_cons_self
    have others := fun v member => separate v (List.mem_cons_of_mem w member)
    rw [join_cons] at same
    cases items with
    | nil =>
      rw [behind, if_pos rfl, List.append_nil] at same
      exact absurd ⟨front, _, by rw [List.append_assoc]; exact same⟩ first.free
    | cons v items =>
      have next := others v List.mem_cons_self
      rw [behind, if_neg (List.cons_ne_nil _ _)] at same
      rcases first.place (head_join next items) same with
        ⟨here, tail⟩ | ⟨front', long, tail⟩
      · rw [join_cons] at tail
        have found := separate_first word_ next tail follows
        exact ⟨[w], items, by rw [found]; rfl, List.cons_ne_nil _ _, by
          rw [List.intercalate_singleton, here]⟩
      · have ⟨before, rest, split, some', joined⟩ := ih others tail
        refine ⟨w :: before, rest, by rw [split]; rfl, List.cons_ne_nil _ _, ?_⟩
        rw [List.intercalate_cons_of_ne_nil some', joined, long, List.append_assoc]

/-- A word in such a list is not begun before it. -/
theorem separate_apart {before rest : List (List α)} (some_ : before ≠ []) {front back : List α}
    (same : front ++ word ++ back = List.intercalate sep (before ++ word :: rest))
    (early : front.length < (List.intercalate sep before ++ sep).length) :
    (front ++ word).length ≤ (List.intercalate sep before ++ sep).length := by
  by_contra long
  rw [join_item sep some_, List.append_assoc (List.intercalate sep before ++ sep)] at same
  rcases List.append_eq_append_iff.mp same with ⟨c, whole, _⟩ | ⟨c, ends, _⟩
  · exact long (List.IsPrefix.length_le ⟨c, whole.symm⟩)
  -- the occurrence ends behind the separator, so it holds it or begins within it
  rw [List.append_assoc] at ends
  rcases List.append_eq_append_iff.mp ends with ⟨d, _, holds⟩ | ⟨d, begins, more⟩
  · exact word_.free ⟨d, c, by rw [List.append_assoc, holds]⟩
  rw [begins, List.length_append, List.length_append] at early
  rcases List.append_eq_append_iff.mp more with ⟨e, past, _⟩ | ⟨e, within, front_⟩
  · have size := congrArg List.length past
    rw [List.length_append] at size
    omega
  · refine word_.not_front (fun none_ => ?_) front_ fun x member =>
      within ▸ List.mem_append_right d member
    have size := congrArg List.length within
    rw [none_, List.append_nil] at size
    omega

/-- Where every item is such a word, it is found where it is an item and nowhere else. -/
theorem separate_clear (filled : sep ≠ []) (separate : ∀ w ∈ items, Separate sep w) :
    Clear sep word items := by
  intro fewer few
  have others := fun w member => separate w (few.subset w member)
  constructor
  · intro back same follows
    cases fewer with
    | nil =>
      have none_ : word ++ back = [] := same
      exact absurd (List.append_eq_nil_iff.mp none_).1 word_.filled
    | cons w fewer =>
      rw [join_cons] at same
      rw [separate_first word_ (others w List.mem_cons_self) same follows, List.head?_cons]
  · intro front back same follows
    rw [List.append_assoc, List.append_assoc] at same
    exact separate_later word_ filled others same follows
  · rintro before rest rfl some_ front back same early
    exact separate_apart word_ some_ same early

end Separate

end Perdition.Lib.Joined
