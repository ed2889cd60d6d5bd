import Mathlib.Data.List.Induction

/-!
# Paths of labelled steps

The labels of a run are kept in a list, the latest one last. A relation between what has happened so
far and the state reached is proved once for the start and once for a step, and then holds all along
the way: wherever the labels are cut, a path leads to the cut.
-/
namespace Perdition.Lib

variable {σ ε : Type}

/-- The labels of a run from a start, and the state it reached. -/
inductive Path (step : σ → ε → σ → Prop) (start : σ) : List ε → σ → Prop where
  /-- Nothing has happened. -/
  | none : Path step start [] start
  /-- One more step was made. -/
  | more {labels : List ε} {state after : σ} {label : ε} (before : Path step start labels state)
    (next : step state label after) : Path step start (labels ++ [label]) after

namespace Path

variable {step : σ → ε → σ → Prop} {start : σ}

/-- What holds at the start and is kept by a step holds of every path. -/
theorem invariant (holds : List ε → σ → Prop) (first : holds [] start)
    (kept : ∀ labels state label after, Path step start labels state → holds labels state →
      step state label after → holds (labels ++ [label]) after)
    {labels : List ε} {state : σ} (path : Path step start labels state) : holds labels state := by
  induction path with
  | none => exact first
  | more before next ih => exact kept _ _ _ _ before ih next

/-- A path leads to every point of its labels. -/
theorem cut {front back : List ε} {state : σ} (path : Path step start (front ++ back) state) :
    ∃ middle, Path step start front middle := by
  induction back using List.reverseRecOn generalizing state with
  | nil => exact ⟨state, by simpa using path⟩
  | append_singleton back label ih =>
    rw [← List.append_assoc] at path
    generalize same : front ++ back ++ [label] = labels at path
    cases path with
    | none => simp at same
    | more before next =>
      obtain ⟨rfl, _⟩ := List.append_inj' same rfl
      exact ih before

/-- Every label of a path is that of a step from where the labels before it lead. -/
theorem split {front back : List ε} {label : ε} {state : σ}
    (path : Path step start (front ++ label :: back) state) :
    ∃ before after, Path step start front before ∧ step before label after ∧
      Path step start (front ++ [label]) after := by
  rw [List.append_cons] at path
  obtain ⟨after, reached⟩ := path.cut
  generalize same : front ++ [label] = labels at reached
  cases reached with
  | none => simp at same
  | @more _ before _ _ path next =>
    obtain ⟨rfl, last⟩ := List.append_inj' same rfl
    cases last
    exact ⟨before, after, path, next, .more path next⟩

end Path

end Perdition.Lib
