import Mathlib.Data.List.Infix
import Mathlib.Data.Nat.Find

/-!
# Lists cut at a separator

The pieces of a list at the leftmost occurrences of a separator that do not overlap. Joined by the
separator they are the list again, and every list has pieces and no others.
-/
namespace Perdition.Lib

variable {α : Type} {sep : List α}

/-- These are the pieces of the list at its leftmost occurrences of the separator. -/
inductive Cut (sep : List α) : List α → List (List α) → Prop
  /-- The separator does not occur. -/
  | last {text : List α} (absent : ¬ sep <:+: text) : Cut sep text [text]
  /-- The separator does not occur earlier than after the first piece. -/
  | next {first rest : List α} {pieces : List (List α)}
    (leftmost : ∀ front back, front ++ sep ++ back = first ++ sep ++ rest →
      first.length ≤ front.length)
    (later : Cut sep rest pieces) : Cut sep (first ++ sep ++ rest) (first :: pieces)

namespace Cut

theorem ne_nil {text : List α} {pieces : List (List α)} (cut : Cut sep text pieces) :
    pieces ≠ [] := by
  cases cut <;> simp

/-- The pieces joined by the separator are the list. -/
theorem join {text : List α} {pieces : List (List α)} (cut : Cut sep text pieces) :
    List.intercalate sep pieces = text := by
  induction cut with
  | last absent => exact List.intercalate_singleton
  | next leftmost later ih => rw [List.intercalate_cons_of_ne_nil later.ne_nil, ih]

/-- A list has pieces in one way only. -/
theorem unique {text : List α} {pieces others : List (List α)} (cut : Cut sep text pieces)
    (other : Cut sep text others) : pieces = others := by
  induction cut generalizing others with
  | last absent =>
    cases other with
    | last absent => rfl
    | next leftmost later => exact absurd ⟨_, _, rfl⟩ absent
  | @next first rest pieces leftmost later ih =>
    generalize whole : first ++ sep ++ rest = text at other
    cases other with
    | last absent => exact absurd ⟨_, _, whole⟩ absent
    | @next first' rest' pieces' leftmost' later' =>
      have le := leftmost _ _ whole.symm
      have ge := leftmost' _ _ whole
      have same := List.append_inj whole (by
        rw [List.length_append, List.length_append]
        omega)
      have heads := List.append_inj same.1 (by omega)
      rw [ih (same.2 ▸ later'), heads.1]

/-- Every list has pieces. -/
theorem exists_cut (filled : sep ≠ []) (text : List α) : ∃ pieces, Cut sep text pieces := by
  classical
  induction size_ : text.length using Nat.strong_induction_on generalizing text with
  | _ size ih =>
    by_cases occurs : ∃ place, ∃ front back, front ++ sep ++ back = text ∧ front.length = place
    · have ⟨first, rest, whole, place⟩ := Nat.find_spec occurs
      have long := List.length_pos_iff.mpr filled
      have shorter : rest.length < size := by
        rw [← size_, ← whole, List.length_append, List.length_append]
        omega
      have ⟨pieces, later⟩ := ih _ shorter rest rfl
      refine ⟨first :: pieces, whole ▸ .next (fun front back same => ?_) later⟩
      rw [place]
      exact Nat.find_min' occurs ⟨front, back, same.trans whole, rfl⟩
    · exact ⟨[text], .last fun ⟨front, back, same⟩ => occurs ⟨_, front, back, same, rfl⟩⟩

end Cut

/-! ## Replacing -/

/-- The list with another one in place of the separator at those occurrences. -/
def Replaced (sep subst text result : List α) : Prop :=
  ∃ pieces, Cut sep text pieces ∧ List.intercalate subst pieces = result

namespace Replaced

variable {subst text result : List α}

theorem unique {other : List α} (one : Replaced sep subst text result)
    (two : Replaced sep subst text other) : result = other := by
  have ⟨pieces, cut, same⟩ := one
  have ⟨pieces', cut', same'⟩ := two
  rw [← same, ← same', cut.unique cut']

/-- Where the separator does not occur nothing is replaced. -/
theorem absent (none_ : ¬ sep <:+: text) : Replaced sep subst text text :=
  ⟨[text], .last none_, List.intercalate_singleton⟩

/-- The first occurrence is replaced, and then those behind it. -/
theorem next {first rest : List α}
    (leftmost : ∀ front back, front ++ sep ++ back = first ++ sep ++ rest →
      first.length ≤ front.length) (later : Replaced sep subst rest result) :
    Replaced sep subst (first ++ sep ++ rest) (first ++ subst ++ result) := by
  have ⟨pieces, cut, same⟩ := later
  exact ⟨_, .next leftmost cut, by rw [List.intercalate_cons_of_ne_nil cut.ne_nil, same]⟩

end Replaced

/-- Replacements performed one after another. -/
def Performed : List (List α × List α) → List α → List α → Prop
  | [], text, result => text = result
  | (sep, subst) :: pairs, text, result =>
    ∃ middle, Replaced sep subst text middle ∧ Performed pairs middle result

/-- None of the replacements puts a longer list in the place of a shorter one. -/
def NeverGrows : List (List α × List α) → List α → Prop
  | [], _ => True
  | (sep, subst) :: pairs, text =>
    (sep.length < subst.length → ¬ sep <:+: text) ∧
      ∀ middle, Replaced sep subst text middle → NeverGrows pairs middle

/-- Replacements by lists that are not longer do not. -/
theorem NeverGrows.of_shorter {pairs : List (List α × List α)}
    (shorter : ∀ pair ∈ pairs, pair.2.length ≤ pair.1.length) (text : List α) :
    NeverGrows pairs text := by
  induction pairs generalizing text with
  | nil => trivial
  | cons pair pairs ih =>
    have first := shorter pair List.mem_cons_self
    constructor
    · intro longer
      omega
    · intro middle _
      exact ih (fun other later => shorter other (List.mem_cons_of_mem _ later)) middle

theorem Performed.unique {pairs : List (List α × List α)} {text result other : List α}
    (one : Performed pairs text result) (two : Performed pairs text other) : result = other := by
  induction pairs generalizing text with
  | nil => exact one.symm.trans two
  | cons pair pairs ih =>
    have ⟨middle, first, later⟩ := one
    have ⟨middle', first', later'⟩ := two
    rw [first'.unique first] at later'
    exact ih later later'

end Perdition.Lib
