import Mathlib.Data.List.TakeWhile

/-!
# A heap of blocks

Blocks are allocated, changed in place and given back. An access to an address without a block has
no result. A pointer that is either one that was given or the only new block is followed through
stages that replace it.
-/
namespace Perdition.Lib

variable {α : Type}

/-- The blocks in use, by their addresses. -/
structure Heap (α : Type) where
  /-- The block at an address. -/
  block : Nat → Option (List α)
  /-- The address of the next block. -/
  next : Nat
  /-- No block is in use from there on. -/
  fresh : ∀ p, next ≤ p → block p = none

namespace Heap

/-- The heap with this block. -/
def one (block : List α) : Heap α where
  block p := if p = 0 then some block else none
  next := 1
  fresh _ late := if_neg (Nat.ne_of_gt late)

/-! ## Operations -/

/-- A new block and its address. -/
def alloc (heap : Heap α) (block : List α) : Nat × Heap α where
  fst := heap.next
  snd :=
    { block := fun p => if p = heap.next then some block else heap.block p
      next := heap.next + 1
      fresh := fun p late => by
        rw [if_neg (by omega)]
        exact heap.fresh p (by omega) }

/-- Another content for the block at an address, if there is one. -/
def put (heap : Heap α) (p : Nat) (content : Option (List α)) : Heap α where
  block a := if a = p then (heap.block p).bind fun _ => content else heap.block a
  next := heap.next
  fresh a late := by
    split
    · rename_i same
      rw [← same, heap.fresh a late]
      rfl
    · exact heap.fresh a late

/-- The block at an address changed in place. -/
def write (heap : Heap α) (p : Nat) (change : List α → Option (List α)) : Option (Heap α) := do
  let block ← heap.block p
  let block ← change block
  return heap.put p (some block)

/-- The block at an address given back. -/
def free (heap : Heap α) (p : Nat) : Option (Heap α) := do
  let _ ← heap.block p
  return heap.put p none

/-! ## What the operations leave -/

variable {heap after : Heap α} {p : Nat}

theorem put_other (content : Option (List α)) {a : Nat} (other : a ≠ p) :
    (heap.put p content).block a = heap.block a :=
  if_neg other

theorem put_there {old : List α} (there : heap.block p = some old) (content : Option (List α)) :
    (heap.put p content).block p = content := by
  rw [put]
  simp [there]

/-- The heap has one block more, at `p`. -/
structure Grows (heap after : Heap α) (p : Nat) (block : List α) : Prop where
  /-- It is new. -/
  new : heap.block p = none
  /-- It is there. -/
  there : after.block p = some block
  /-- No other block is touched. -/
  others : ∀ a, a ≠ p → after.block a = heap.block a

theorem alloc_grows (heap : Heap α) (block : List α) :
    Grows heap (heap.alloc block).2 (heap.alloc block).1 block where
  new := heap.fresh _ le_rfl
  there := if_pos rfl
  others _ other := if_neg other

/-- A block filled after its allocation. -/
theorem Grows.write {old block : List α} {change : List α → Option (List α)}
    (grown : Grows heap after p old) (changed : change old = some block) :
    ∃ filled, after.write p change = some filled ∧ Grows heap filled p block := by
  refine ⟨after.put p (some block), ?_, grown.new, put_there grown.there _, fun a other => ?_⟩
  · rw [Heap.write, grown.there, Option.bind_eq_bind, Option.bind_some, changed]
    rfl
  · rw [put_other _ other]
    exact grown.others a other

/-! ## One pointer through stages -/

/-- `q` is the pointer `p` that was given, or else the only block that is new. No other block is
touched. -/
structure Owned (heap : Heap α) (p : Nat) (after : Heap α) (q : Nat) : Prop where
  /-- Other blocks are as they were. -/
  others : ∀ a, a ≠ q → after.block a = heap.block a
  /-- The given block is as it was. -/
  given : q = p → after.block q = heap.block q
  /-- Another one is new. -/
  new : q ≠ p → heap.block q = none

theorem Owned.refl (heap : Heap α) (p : Nat) : Owned heap p heap p :=
  ⟨fun _ _ => rfl, fun _ => rfl, fun other => absurd rfl other⟩

theorem Grows.owned {block : List α} (grown : Grows heap after p block) {given : Nat}
    {old : List α} (there : heap.block given = some old) : Owned heap given after p := by
  refine ⟨grown.others, fun same => ?_, fun _ => grown.new⟩
  rw [← same, grown.new] at there
  cases there

/-- Blocks that were in use are as they were. -/
theorem Owned.live {q : Nat} (owned : Owned heap p after q) {a : Nat} {block : List α}
    (there : heap.block a = some block) : after.block a = some block := by
  by_cases same : a = q
  · by_cases given : q = p
    · rw [same, owned.given given, ← same, there]
    · rw [same, owned.new given] at there
      cases there
  · rw [owned.others a same, there]

/-- A pointer that a stage replaced is given back, unless it is the one that was given. -/
def release (heap : Heap α) (old result given : Nat) : Option (Heap α) :=
  if old ≠ result ∧ old ≠ given then heap.free old else some heap

/-- After the release the new pointer is the only new block again. -/
theorem Owned.release {middle : Heap α} {q r : Nat} {block : List α}
    (first : Owned heap p middle q) (second : Owned middle q after r)
    (there : heap.block p = some block) (old : (middle.block q).isSome) :
    ∃ left, after.release q r p = some left ∧ Owned heap p left r ∧
      left.block r = after.block r := by
  rw [Heap.release]
  by_cases kept : q = r
  · subst kept
    rw [if_neg (fun replaced => replaced.1 rfl)]
    have same := second.given rfl
    refine ⟨after, rfl, ⟨fun a other => ?_, fun given => ?_, first.new⟩, rfl⟩
    · rw [second.others a other, first.others a other]
    · rw [same, first.given given]
  · have new := second.new (Ne.symm kept)
    have elsewhere : r ≠ p := by
      rintro rfl
      rw [first.live there] at new
      cases new
    by_cases given : q = p
    · subst given
      rw [if_neg (fun replaced => replaced.2 rfl)]
      refine ⟨after, rfl, ⟨fun a other => ?_, fun same => absurd same elsewhere, fun _ => ?_⟩, rfl⟩
      · rw [second.others a other]
        by_cases mine : a = q
        · rw [mine, first.given rfl]
        · rw [first.others a mine]
      · rw [← first.others r (Ne.symm kept), new]
    · rw [if_pos ⟨kept, given⟩, free, second.others q kept]
      obtain ⟨old, used⟩ := Option.isSome_iff_exists.mp old
      rw [used, Option.bind_eq_bind, Option.bind_some]
      have there' : after.block q = some old := by rw [second.others q kept, used]
      refine ⟨_, rfl, ⟨fun a other => ?_, fun same => absurd same elsewhere, fun _ => ?_⟩,
        put_other none (Ne.symm kept)⟩
      · by_cases mine : a = q
        · rw [mine, put_there there' none, first.new given]
        · rw [put_other none mine, second.others a other, first.others a mine]
      · rw [← first.others r (Ne.symm kept), new]

end Heap

end Perdition.Lib
