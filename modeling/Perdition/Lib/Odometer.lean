import Mathlib.Data.Nat.Digits.Lemmas
import Mathlib.Order.Bounds.Basic

/-!
# Odometers

A row of symbols that is moved on by one: the first symbol is replaced by the next one, and where
the symbols start over the symbol behind it is moved on too. The first symbol counts least.
-/
namespace Perdition.Lib

/-- Symbols in a circle, each of them a digit. -/
structure Wheel (α : Type) where
  /-- The symbols. -/
  symbol : α → Prop
  /-- The count of the symbols. -/
  base : Nat
  /-- The digit that a symbol is. -/
  digit : α → Nat
  /-- The symbol after a symbol, and whether the wheel did not start over. -/
  next : α → α × Bool
  /-- There is more than one symbol. -/
  base_two : 1 < base
  /-- Symbols are digits. -/
  digit_lt : ∀ c, symbol c → digit c < base
  /-- Each symbol is another digit. -/
  digit_inj : ∀ c d, symbol c → symbol d → digit c = digit d → c = d
  /-- The next one is a symbol. -/
  next_symbol : ∀ c, symbol c → symbol (next c).1
  /-- Its digit is one more. -/
  next_digit : ∀ c, symbol c → (next c).2 = true → digit (next c).1 = digit c + 1
  /-- After the last digit comes the first. -/
  next_over : ∀ c, symbol c → (next c).2 = false → digit (next c).1 = 0 ∧ digit c + 1 = base

namespace Wheel

variable {α : Type} (wheel : Wheel α)

/-- The row moved on by one. -/
def advance : List α → List α
  | [] => []
  | c :: rest =>
    if (wheel.next c).2 then (wheel.next c).1 :: rest else (wheel.next c).1 :: advance rest

/-- The number that a row shows. -/
def value (row : List α) : Nat := Nat.ofDigits wheel.base (row.map wheel.digit)

/-- A row of symbols. -/
def Row (row : List α) : Prop := ∀ c ∈ row, wheel.symbol c

@[simp] theorem advance_length (row : List α) : (wheel.advance row).length = row.length := by
  induction row with
  | nil => rfl
  | cons c rest ih =>
    rw [advance]
    split
    · rfl
    · rw [List.length_cons, ih, List.length_cons]

theorem value_cons (c : α) (rest : List α) :
    wheel.value (c :: rest) = wheel.digit c + wheel.base * wheel.value rest := by
  rw [value, List.map_cons, Nat.ofDigits_cons]
  rfl

variable {wheel} {row : List α}

theorem Row.advance (symbols : wheel.Row row) : wheel.Row (wheel.advance row) := by
  induction row with
  | nil => exact symbols
  | cons c rest ih =>
    have first := wheel.next_symbol c (symbols c List.mem_cons_self)
    have later : wheel.Row rest := fun d member => symbols d (List.mem_cons_of_mem c member)
    rw [Wheel.advance]
    split
    · exact List.forall_mem_cons.mpr ⟨first, later⟩
    · exact List.forall_mem_cons.mpr ⟨first, ih later⟩

theorem Row.digit_small (symbols : wheel.Row row) : ∀ d ∈ row.map wheel.digit, d < wheel.base := by
  intro d member
  have ⟨c, inside, same⟩ := List.mem_map.mp member
  rw [← same]
  exact wheel.digit_lt c (symbols c inside)

/-- A row shows a number of its length. -/
theorem Row.value_lt (symbols : wheel.Row row) : wheel.value row < wheel.base ^ row.length := by
  have bound := Nat.ofDigits_lt_base_pow_length wheel.base_two symbols.digit_small
  rwa [List.length_map] at bound

/-- Rows of one length that show one number are the same. -/
theorem Row.value_inj {other : List α} (symbols : wheel.Row row) (symbols' : wheel.Row other)
    (length : row.length = other.length) (same : wheel.value row = wheel.value other) :
    row = other := by
  have digits : row.map wheel.digit = other.map wheel.digit := by
    apply Nat.ofDigits_inj_of_len_eq wheel.base_two _ symbols.digit_small symbols'.digit_small same
    rw [List.length_map, List.length_map, length]
  apply List.ext_getElem length
  intro i inside inside'
  apply wheel.digit_inj _ _ (symbols _ (List.getElem_mem inside)) (symbols' _ (List.getElem_mem inside'))
  have here := congrArg (·[i]?) digits
  simpa [List.getElem?_eq_getElem inside, List.getElem?_eq_getElem inside'] using here

/-- Moving a row on by one adds one. -/
theorem Row.value_advance (symbols : wheel.Row row) :
    wheel.value (wheel.advance row) = (wheel.value row + 1) % wheel.base ^ row.length := by
  induction row with
  | nil => simp [Wheel.advance, value]
  | cons c rest ih =>
    have first := symbols c List.mem_cons_self
    have later : wheel.Row rest := fun d member => symbols d (List.mem_cons_of_mem c member)
    have bound := symbols.value_lt
    rw [Wheel.advance]
    split
    · rename_i stays
      have more := wheel.next_digit c first stays
      have new := (Row.advance symbols).value_lt
      rw [Wheel.advance, if_pos stays, value_cons, more, List.length_cons] at new
      rw [value_cons, value_cons, more, List.length_cons]
      rw [Nat.mod_eq_of_lt (by omega)]
      omega
    · rename_i carries
      have ⟨zero, full⟩ := wheel.next_over c first (Bool.eq_false_of_not_eq_true carries)
      -- the carry is one more unit of the rest of the row
      have carried : wheel.digit c + wheel.base * wheel.value rest + 1 =
          wheel.base * (wheel.value rest + 1) := by
        rw [Nat.mul_add, Nat.mul_one]
        omega
      rw [value_cons, value_cons, zero, ih later, carried, List.length_cons, Nat.pow_succ',
        Nat.mul_mod_mul_left, Nat.zero_add]

section Iterate

variable (symbols : wheel.Row row)
include symbols

/-- A row that is moved on stays a row of its length. -/
theorem Row.iterate (n : Nat) :
    wheel.Row (wheel.advance^[n] row) ∧ (wheel.advance^[n] row).length = row.length := by
  induction n with
  | zero => exact ⟨symbols, rfl⟩
  | succ n ih =>
    rw [Function.iterate_succ_apply']
    exact ⟨Row.advance ih.1, (wheel.advance_length _).trans ih.2⟩

/-- Moving a row on so many times adds so many. -/
theorem Row.value_iterate (n : Nat) :
    wheel.value (wheel.advance^[n] row) = (wheel.value row + n) % wheel.base ^ row.length := by
  induction n with
  | zero => exact (Nat.mod_eq_of_lt symbols.value_lt).symm
  | succ n ih =>
    have ⟨moved, length⟩ := symbols.iterate n
    rw [Function.iterate_succ_apply', Row.value_advance moved, length, ih, Nat.mod_add_mod,
      Nat.add_assoc]

/-- Two rows on the way are the same where their distance is a multiple of the count of all rows. -/
theorem Row.iterate_eq (m n : Nat) :
    wheel.advance^[m] row = wheel.advance^[n] row ↔ m ≡ n [MOD wheel.base ^ row.length] := by
  have ⟨left, leftLength⟩ := symbols.iterate m
  have ⟨right, rightLength⟩ := symbols.iterate n
  have values : wheel.advance^[m] row = wheel.advance^[n] row ↔
      wheel.value (wheel.advance^[m] row) = wheel.value (wheel.advance^[n] row) :=
    ⟨congrArg _, Row.value_inj left right (leftLength.trans rightLength.symm)⟩
  rw [values, symbols.value_iterate m, symbols.value_iterate n]
  constructor
  · intro same
    exact Nat.ModEq.add_left_cancel' _ same
  · intro same
    exact same.add_left _

/-- The first row that comes again comes after all of them. -/
theorem Row.iterate_repeats :
    IsLeast {n | ∃ m < n, wheel.advance^[m] row = wheel.advance^[n] row}
      (wheel.base ^ row.length) := by
  have positive : 0 < wheel.base ^ row.length :=
    Nat.pow_pos (Nat.lt_trans Nat.zero_lt_one wheel.base_two)
  constructor
  · refine ⟨0, positive, (symbols.iterate_eq _ _).mpr ?_⟩
    exact (Nat.modEq_zero_iff_dvd.mpr (dvd_refl _)).symm
  · intro n ⟨m, before, same⟩
    have apart := (Nat.modEq_iff_dvd' (Nat.le_of_lt before)).mp ((symbols.iterate_eq m n).mp same)
    have far := Nat.le_of_dvd (by omega) apart
    omega

end Iterate

end Wheel

end Perdition.Lib
