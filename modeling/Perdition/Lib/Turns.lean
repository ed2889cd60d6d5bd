import Mathlib.Data.List.TakeWhile

/-!
# A counter that goes round

A counter that is incremented and then reduced to the places of a list. The increment has no result
at a limit, and the reduction has none where the list is empty.
-/
namespace Perdition.Lib.Turns

/-- The next place. -/
def next (limit count place : Nat) : Option Nat :=
  if place < limit ∧ 0 < count then some ((place + 1) % count) else none

/-- The places after so many steps. -/
def visit (limit count : Nat) : Nat → Nat → Option (List Nat)
  | _, 0 => some []
  | place, n + 1 => do
    let place ← next limit count place
    let later ← visit limit count place n
    return place :: later

/-- The places that follow one another cyclically. -/
def places (count place n : Nat) : List Nat := (List.range n).map fun k => (place + 1 + k) % count

variable {limit count : Nat}

theorem next_inside {place after : Nat} (step : next limit count place = some after) :
    after < count := by
  rw [next] at step
  split at step
  · rename_i fits
    exact Option.some.inj step ▸ Nat.mod_lt _ fits.2
  · cases step

@[simp] theorem places_length (count place n : Nat) : (places count place n).length = n := by
  rw [places, List.length_map, List.length_range]

theorem visit_length {place n : Nat} {visited : List Nat}
    (same : visit limit count place n = some visited) : visited.length = n := by
  induction n generalizing place visited with
  | zero => rw [← Option.some.inj same, List.length_nil]
  | succ n ih =>
    have ⟨after, _, rest⟩ := Option.bind_eq_some_iff.mp same
    have ⟨later, found, whole⟩ := Option.bind_eq_some_iff.mp rest
    rw [← Option.some.inj whole, List.length_cons, ih found]

/-- The places behind the first one. -/
theorem places_succ (count place n : Nat) :
    places count place (n + 1) =
      (place + 1) % count :: places count ((place + 1) % count) n := by
  rw [places, List.range_succ_eq_map, List.map_cons, List.map_map]
  congr 1
  refine List.map_congr_left fun k _ => ?_
  change (place + 1 + (k + 1)) % count = ((place + 1) % count + 1 + k) % count
  rw [Nat.add_assoc ((place + 1) % count), Nat.mod_add_mod, Nat.add_comm k 1]

/-- A counter that starts below the limit goes round a list that is not longer. -/
theorem visit_cyclic (filled : 0 < count) (small : count ≤ limit) {place : Nat}
    (start : place < limit) (n : Nat) :
    visit limit count place n = some (places count place n) := by
  induction n generalizing place with
  | zero => rfl
  | succ n ih =>
    have step : next limit count place = some ((place + 1) % count) := if_pos ⟨start, filled⟩
    have later := ih ((next_inside step).trans_le small)
    rw [visit, step, Option.bind_eq_bind, Option.bind_some, later, places_succ]
    rfl

/-- In a longer list the limit is reached. -/
theorem visit_limit (long : limit < count) (n : Nat) {place : Nat} (way : place + n = limit) :
    visit limit count place (n + 1) = none := by
  induction n generalizing place with
  | zero =>
    have stop : next limit count place = none := if_neg fun fits => by omega
    rw [visit, stop]
    rfl
  | succ n ih =>
    have step : next limit count place = some (place + 1) := by
      rw [next, if_pos (by omega), Nat.mod_eq_of_lt (by omega)]
    rw [visit, step, Option.bind_eq_bind, Option.bind_some, ih (by omega)]
    rfl

/-- A counter never stops exactly where it starts below the limit and the list is neither empty nor
longer than the limit. -/
theorem visit_all_iff (place : Nat) :
    (∀ n, visit limit count place n = some (places count place n)) ↔
      0 < count ∧ count ≤ limit ∧ place < limit := by
  constructor
  · intro all
    have first := all 1
    have fits : place < limit ∧ 0 < count := by
      by_contra stuck
      rw [visit, next, if_neg stuck] at first
      cases first
    refine ⟨fits.2, ?_, fits.1⟩
    by_contra long
    have stop := @visit_limit limit count (by omega) (limit - place) place (by omega)
    rw [all] at stop
    cases stop
  · rintro ⟨filled, small, start⟩ n
    exact visit_cyclic filled small start n

end Perdition.Lib.Turns
