import Perdition.Lib.Path
import Perdition.Lib.Program

/-!
# Iterations along paths

The rounds of a loop that went on are a path: what the loop was at before and after a round, labelled
with what the round took. A loop goes along any such path, and a loop that returned returned after
one.
-/
namespace Perdition.Lib

variable {σ ε α β ι : Type} (step : β → σ → Outcome σ ε (β ⊕ α))
  {takes : β × σ → ι → β × σ → Prop} {b : β} {s : σ}

/-- A loop goes along a path of rounds that go on. -/
theorem iterate_along
    (goes : ∀ x label y, takes x label y → step x.1 x.2 = .done (.inl y.1) y.2)
    {labels : List ι} {last : β × σ} (path : Path takes (b, s) labels last) :
    ∀ fuel, iterate step (labels.length + fuel) b s = iterate step fuel last.1 last.2 := by
  induction path with
  | none => exact fun fuel => by rw [List.length_nil, Nat.zero_add]
  | @more labels state after label before next ih =>
    intro fuel
    have size : (labels ++ [label]).length + fuel = labels.length + (fuel + 1) := by
      rw [List.length_append, List.length_singleton]
      omega
    rw [size, ih, iterate, goes _ _ _ next]
    rfl

/-- A loop that returned did so in the round after a path, where every round that goes on from a
path takes something. -/
theorem iterate_path {value : α} {last : σ}
    (labelled : ∀ labels x y, Path takes (b, s) labels x →
      step x.1 x.2 = .done (.inl y.1) y.2 → ∃ label, takes x label y) :
    ∀ fuel labels (x : β × σ), Path takes (b, s) labels x →
      iterate step fuel x.1 x.2 = .done value last →
      ∃ labels y, Path takes (b, s) labels y ∧ step y.1 y.2 = .done (.inr value) last := by
  intro fuel
  induction fuel with
  | zero =>
    intro labels x path run
    cases run
  | succ fuel ih =>
    intro labels x path run
    rw [iterate] at run
    obtain ⟨result, middle, first, rest⟩ := Outcome.next_eq_done.mp run
    cases result with
    | inl again =>
      obtain ⟨label, took⟩ := labelled labels x (again, middle) path first
      exact ih _ (again, middle) (.more path took) rest
    | inr final =>
      cases rest
      exact ⟨labels, x, path, first⟩

end Perdition.Lib
