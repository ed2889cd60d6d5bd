import Mathlib.Data.List.TakeWhile

/-!
# Stores into a block of memory

A block is the list of its elements. Positions count from its first element, and a store at a
position before the block or past it has no result.
-/
namespace Perdition.Lib.Block

variable {α : Type}

/-- One element stored at a position of the block. -/
def store (block : List α) (place : Int) (x : α) : Option (List α) :=
  if 0 ≤ place ∧ place < block.length then some (block.set place.toNat x) else none

/-- Elements stored one after another, the first of them at the position. -/
def storeAll (block : List α) (place : Int) : List α → Option (List α)
  | [] => some block
  | x :: rest => do
    let block ← store block place x
    storeAll block (place + 1) rest

/-- Elements read one after another, the first of them at the position. -/
def load (block : List α) (place : Int) (n : Nat) : Option (List α) :=
  if 0 ≤ place ∧ place + n ≤ block.length then some ((block.drop place.toNat).take n) else none

/-- Elements moved to another position, whether or not they are stored over themselves. -/
def move (block : List α) (target source : Int) (n : Nat) : Option (List α) := do
  storeAll block target (← load block source n)

/-- The block with another size. What it has more is whatever is there. -/
def resize (garbage : Nat → α) (block : List α) (size : Nat) : List α :=
  (List.range size).map fun i => block[i]?.getD (garbage i)

/-- A store inside the block replaces the element there. -/
theorem store_inside (front back : List α) (old x : α) :
    store (front ++ old :: back) front.length x = some (front ++ x :: back) := by
  have inside : (0 : Int) ≤ front.length ∧
      (front.length : Int) < (front ++ old :: back).length := by
    simp only [List.length_append, List.length_cons]
    omega
  rw [store, if_pos inside, Int.toNat_natCast, List.set_append_right _ _ (le_refl _), Nat.sub_self,
    List.set_cons_zero]

/-- A store at the start of the block. -/
theorem store_first (rest : List α) (old x : α) : store (old :: rest) 0 x = some (x :: rest) :=
  store_inside [] rest old x

/-- A store keeps the size of the block. -/
theorem store_length {block after : List α} {place : Int} {x : α}
    (stored : store block place x = some after) : after.length = block.length := by
  unfold store at stored
  split at stored
  · cases stored
    exact List.length_set
  · cases stored

/-- Stores inside the block replace as many elements as they store. -/
theorem storeAll_inside (front old back xs : List α) (same : old.length = xs.length) :
    storeAll (front ++ old ++ back) front.length xs = some (front ++ xs ++ back) := by
  induction xs generalizing front old with
  | nil => rw [List.length_eq_zero_iff.mp same, storeAll]
  | cons x rest ih =>
    cases old with
    | nil => cases same
    | cons first old =>
      have start : front ++ first :: old ++ back = front ++ first :: (old ++ back) := by simp
      have next : ((front.length : Int) + 1) = ((front ++ [x]).length : Int) := by simp
      rw [storeAll, start, store_inside, Option.bind_eq_bind, Option.bind_some, next]
      have done := ih (front ++ [x]) old (Nat.succ.inj same)
      simpa using done

/-- Stores from the first element on. -/
theorem storeAll_start (old back xs : List α) (same : old.length = xs.length) :
    storeAll (old ++ back) 0 xs = some (xs ++ back) :=
  storeAll_inside [] old back xs same

/-- Stores from a place on have a result exactly where there is room for them. -/
theorem storeAll_behind (front rest xs : List α) :
    storeAll (front ++ rest) front.length xs =
      if xs.length ≤ rest.length then some (front ++ xs ++ rest.drop xs.length) else none := by
  induction xs generalizing front rest with
  | nil => simp [storeAll]
  | cons x xs ih =>
    cases rest with
    | nil =>
      have past : store (front ++ []) front.length x = none := if_neg fun inside => by
        have short := inside.2
        rw [List.append_nil] at short
        omega
      rw [storeAll, past, if_neg (by simp)]
      rfl
    | cons old rest =>
      have next : ((front.length : Int) + 1) = ((front ++ [x]).length : Int) := by simp
      have start : front ++ x :: rest = front ++ [x] ++ rest := by simp
      rw [storeAll, store_inside, Option.bind_eq_bind, Option.bind_some, next, start, ih]
      simp

/-- Stores keep the size of the block. -/
theorem storeAll_length {block after : List α} {place : Int} {xs : List α}
    (stored : storeAll block place xs = some after) : after.length = block.length := by
  induction xs generalizing block place with
  | nil =>
    cases stored
    rfl
  | cons x rest ih =>
    have ⟨next, first, later⟩ := Option.bind_eq_some_iff.mp stored
    exact (ih later).trans (store_length first)

/-- Stores that have a result are inside the block. -/
theorem storeAll_within {block after : List α} {place : Int} {xs : List α} (some_ : xs ≠ [])
    (stored : storeAll block place xs = some after) :
    0 ≤ place ∧ place + xs.length ≤ block.length := by
  cases xs with
  | nil => exact absurd rfl some_
  | cons x rest =>
    have ⟨next, first, later⟩ := Option.bind_eq_some_iff.mp stored
    have inside : 0 ≤ place ∧ place < block.length := by
      unfold store at first
      split at first
      · assumption
      · cases first
    have ⟨n, here⟩ := Int.eq_ofNat_of_zero_le inside.1
    have size : (block.take n).length = n := by
      rw [List.length_take]
      omega
    have whole := storeAll_behind (block.take n) (block.drop n) (x :: rest)
    rw [List.take_append_drop, size, ← here, stored] at whole
    split at whole
    · rename_i room
      rw [List.length_drop] at room
      omega
    · cases whole

/-- Elements inside the block are read. -/
theorem load_inside (front xs back : List α) :
    load (front ++ xs ++ back) front.length xs.length = some xs := by
  have inside : (0 : Int) ≤ front.length ∧
      (front.length : Int) + xs.length ≤ (front ++ xs ++ back).length := by
    simp only [List.length_append]
    omega
  rw [load, if_pos inside, Int.toNat_natCast, List.append_assoc, List.drop_left, List.take_left]

@[simp] theorem resize_length (garbage : Nat → α) (block : List α) (size : Nat) :
    (resize garbage block size).length = size := by
  simp [resize]

/-- What the block begins with stays where it has room. -/
theorem resize_keeps (garbage : Nat → α) {front : List α} (rest : List α) {size : Nat}
    (room : front.length ≤ size) :
    ∃ back, resize garbage (front ++ rest) size = front ++ back := by
  have kept : front <+: resize garbage (front ++ rest) size := by
    rw [List.prefix_iff_getElem?]
    intro i inside
    have here : (front ++ rest)[i]? = some front[i] := by
      rw [List.getElem?_append_left inside, List.getElem?_eq_getElem inside]
    rw [resize, List.getElem?_map, List.getElem?_range (by omega), Option.map_some, here]
    rfl
  have ⟨back, same⟩ := kept
  exact ⟨back, same.symm⟩

end Perdition.Lib.Block
