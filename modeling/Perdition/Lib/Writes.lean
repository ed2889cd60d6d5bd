import Mathlib.Logic.Function.Basic

/-!
# Writes to a record

A record whose members are indexed by a type, and the writes that change one member each. A run
of writes may be told to pass over the members that are held.
-/
namespace Perdition.Lib

variable {ι : Type} {β : ι → Type}

/-- A write of one member, which may look at the value it replaces. -/
structure Write (β : ι → Type) where
  /-- The member that is written. -/
  member : ι
  /-- Its new value, from its old one. -/
  update : β member → β member

namespace Write

variable [DecidableEq ι]

/-- The record after the write. -/
def apply (record : (i : ι) → β i) (write : Write β) : (i : ι) → β i :=
  Function.update record write.member (write.update (record write.member))

/-- The record after all of the writes, in their order. -/
def run (writes : List (Write β)) (record : (i : ι) → β i) : (i : ι) → β i :=
  writes.foldl apply record

/-- The record after those of the writes whose members are not held. -/
def runUnless (held : ι → Prop) [DecidablePred held] (writes : List (Write β))
    (record : (i : ι) → β i) : (i : ι) → β i :=
  run (writes.filter fun write => ¬held write.member) record

@[simp] theorem apply_self (record : (i : ι) → β i) (write : Write β) :
    apply record write write.member = write.update (record write.member) :=
  Function.update_self _ _ _

theorem apply_other {record : (i : ι) → β i} {write : Write β} {i : ι} (other : write.member ≠ i) :
    apply record write i = record i :=
  Function.update_of_ne other.symm _ _

/-- What a write leaves in a member depends on nothing but that member. -/
theorem apply_congr {left right : (i : ι) → β i} {i : ι} (same : left i = right i)
    (write : Write β) : apply left write i = apply right write i := by
  by_cases here : write.member = i
  · subst here
    rw [apply_self, apply_self, same]
  · rw [apply_other here, apply_other here, same]

@[simp] theorem run_nil (record : (i : ι) → β i) : run [] record = record := rfl

@[simp] theorem run_cons (write : Write β) (rest : List (Write β)) (record : (i : ι) → β i) :
    run (write :: rest) record = run rest (apply record write) := rfl

theorem run_congr {left right : (i : ι) → β i} {i : ι} (writes : List (Write β))
    (same : left i = right i) : run writes left i = run writes right i := by
  induction writes generalizing left right with
  | nil => exact same
  | cons write rest ih => exact ih (apply_congr same write)

/-- A member that no write names keeps its value. -/
theorem run_untouched {writes : List (Write β)} {i : ι} (untouched : i ∉ writes.map member)
    (record : (i : ι) → β i) : run writes record i = record i := by
  induction writes generalizing record with
  | nil => rfl
  | cons write rest ih =>
    simp only [List.map_cons, List.mem_cons, not_or] at untouched
    rw [run_cons, ih untouched.2, apply_other (Ne.symm untouched.1)]

/-- What every write keeps of a member is kept by all of them. -/
theorem run_invariant {i : ι} {holds : β i → Prop} {writes : List (Write β)}
    (each : ∀ write ∈ writes, ∀ record, holds (record i) → holds (apply record write i))
    {record : (i : ι) → β i} (start : holds (record i)) : holds (run writes record i) := by
  induction writes generalizing record with
  | nil => exact start
  | cons write rest ih =>
    refine ih (fun other later => each other (List.mem_cons_of_mem _ later)) ?_
    exact each write (List.mem_cons_self ..) record start

/-- A held member keeps its value. -/
theorem runUnless_held {held : ι → Prop} [DecidablePred held] {i : ι} (kept : held i)
    (writes : List (Write β)) (record : (i : ι) → β i) :
    runUnless held writes record i = record i := by
  refine run_untouched (fun named => ?_) record
  have ⟨write, member, place⟩ := List.mem_map.mp named
  have free := (List.mem_filter.mp member).2
  exact (of_decide_eq_true free) (place ▸ kept)

/-- A member that is not held takes every write. -/
theorem runUnless_free {held : ι → Prop} [DecidablePred held] {i : ι} (free : ¬held i)
    (writes : List (Write β)) (record : (i : ι) → β i) :
    runUnless held writes record i = run writes record i := by
  induction writes generalizing record with
  | nil => rfl
  | cons write rest ih =>
    by_cases kept : held write.member
    · have other : write.member ≠ i := fun same => free (same ▸ kept)
      have skips : runUnless held (write :: rest) record = runUnless held rest record := by
        simp [runUnless, kept]
      rw [skips, ih, run_cons]
      exact run_congr rest (apply_other other).symm
    · have takes : runUnless held (write :: rest) record =
          runUnless held rest (apply record write) := by
        simp [runUnless, kept]
      rw [takes, ih, run_cons]

/-- Writes that look at nothing leave the same value whatever was there, if one names the member. -/
theorem run_constant {writes : List (Write β)} {i : ι} (named : i ∈ writes.map member)
    (blind : ∀ write ∈ writes, write.member = i → ∀ old new, write.update old = write.update new)
    (left right : (i : ι) → β i) : run writes left i = run writes right i := by
  induction writes generalizing left right with
  | nil => exact absurd named List.not_mem_nil
  | cons write rest ih =>
    have blind' := fun other member => blind other (List.mem_cons_of_mem _ member)
    by_cases later : i ∈ rest.map member
    · exact ih later blind' _ _
    · have here : i = write.member := (List.mem_cons.mp named).resolve_right later
      subst here
      refine run_congr rest ?_
      rw [apply_self, apply_self]
      exact blind write List.mem_cons_self rfl _ _

end Write

end Perdition.Lib
