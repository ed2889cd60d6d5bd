import Perdition.Lib.Program

/-!
# Two runs of one program

A program run under two handlers, or twice under one, from related states. The runs go together as
long as every operation keeps the states related. A run may instead escape: the first state then
meets a predicate that no operation undoes, and nothing is said about the second run.
-/
namespace Perdition.Lib

variable {S : Signature} {σ₁ σ₂ ε α β : Type}

/-- Two outcomes end in the same way in related states, or the first escaped. -/
inductive Outcome.Related (returned : α → σ₁ → σ₂ → Prop) (stopped : σ₁ → σ₂ → Prop)
    (escaped : σ₁ → Prop) : Outcome σ₁ ε α → Outcome σ₂ ε α → Prop where
  /-- The first run escaped. -/
  | escape {first : Outcome σ₁ ε α} {second : Outcome σ₂ ε α} (gone : escaped first.state) :
    Related returned stopped escaped first second
  /-- Both returned the same value. -/
  | done {value : α} {s₁ : σ₁} {s₂ : σ₂} (holds : returned value s₁ s₂) :
    Related returned stopped escaped (.done value s₁) (.done value s₂)
  /-- Both were stopped for the same reason. -/
  | halted {reason : ε} {s₁ : σ₁} {s₂ : σ₂} (holds : stopped s₁ s₂) :
    Related returned stopped escaped (.halted reason s₁) (.halted reason s₂)
  /-- Both used up the iterations of a loop. -/
  | looping {s₁ : σ₁} {s₂ : σ₂} (holds : stopped s₁ s₂) :
    Related returned stopped escaped (.looping s₁) (.looping s₂)

/-- Weaker requirements relate the outcomes too. -/
theorem Outcome.Related.mono {first : Outcome σ₁ ε α} {second : Outcome σ₂ ε α}
    {returned returned' : α → σ₁ → σ₂ → Prop} {stopped stopped' : σ₁ → σ₂ → Prop}
    {escaped : σ₁ → Prop} (given : Related returned stopped escaped first second)
    (value : ∀ a s₁ s₂, returned a s₁ s₂ → returned' a s₁ s₂)
    (stop : ∀ s₁ s₂, stopped s₁ s₂ → stopped' s₁ s₂) :
    Related returned' stopped' escaped first second := by
  cases given with
  | escape gone => exact .escape gone
  | done holds => exact .done (value _ _ _ holds)
  | halted holds => exact .halted (stop _ _ holds)
  | looping holds => exact .looping (stop _ _ holds)

namespace Program

/-- Runs from related states are related. -/
def Relates (first : Handler S σ₁ ε) (second : Handler S σ₂ ε) (before : σ₁ → σ₂ → Prop)
    (program : Program S α) (returned : α → σ₁ → σ₂ → Prop) (stopped : σ₁ → σ₂ → Prop)
    (escaped : σ₁ → Prop) : Prop :=
  ∀ fuel s₁ s₂, before s₁ s₂ → Outcome.Related returned stopped escaped
    (program.run first fuel s₁) (program.run second fuel s₂)

section Relates

variable {first : Handler S σ₁ ε} {second : Handler S σ₂ ε}
  {before : σ₁ → σ₂ → Prop} {stopped : σ₁ → σ₂ → Prop} {escaped : σ₁ → Prop}

theorem relates_pure {value : α} {returned : α → σ₁ → σ₂ → Prop}
    (holds : ∀ s₁ s₂, before s₁ s₂ → returned value s₁ s₂) :
    Relates first second before (pure value) returned stopped escaped :=
  fun _ s₁ s₂ given => .done (holds s₁ s₂ given)

theorem relates_perform {op : S.Op} {returned : S.Res op → σ₁ → σ₂ → Prop}
    (step : ∀ s₁ s₂, before s₁ s₂ →
      Outcome.Related returned stopped escaped (first op s₁) (second op s₂)) :
    Relates first second before (perform op) returned stopped escaped :=
  fun _ s₁ s₂ given => step s₁ s₂ given

theorem relates_mono {before' : σ₁ → σ₂ → Prop} {stopped' : σ₁ → σ₂ → Prop}
    {program : Program S α} {returned returned' : α → σ₁ → σ₂ → Prop}
    (given : Relates first second before program returned stopped escaped)
    (weaker : ∀ s₁ s₂, before' s₁ s₂ → before s₁ s₂)
    (value : ∀ a s₁ s₂, returned a s₁ s₂ → returned' a s₁ s₂)
    (stop : ∀ s₁ s₂, stopped s₁ s₂ → stopped' s₁ s₂) :
    Relates first second before' program returned' stopped' escaped :=
  fun fuel s₁ s₂ holds => (given fuel s₁ s₂ (weaker s₁ s₂ holds)).mono value stop

/-- An escaped state stays escaped along a program. -/
theorem run_escaped (lasting : ∀ op s, escaped s → escaped (first op s).state)
    (program : Program S α) (fuel : Nat) (s : σ₁) (gone : escaped s) :
    escaped (program.run first fuel s).state :=
  run_invariant program lasting fuel s gone

/-- An escaped state stays escaped along the iterations of a loop. -/
theorem iterate_escaped (lasting : ∀ op s, escaped s → escaped (first op s).state)
    (body : β → Program S (β ⊕ α)) (fuel rounds : Nat) (start : β) (s : σ₁) (gone : escaped s) :
    escaped (iterate (fun at_ s => (body at_).run first fuel s) rounds start s).state := by
  refine Outcome.meets_iff_state.mp (iterate_meets (fun _ s => escaped s)
    (fun b s gone => ?_) (fun _ _ => id) rounds start s gone)
  refine (Outcome.meets_iff_state.mpr (run_escaped lasting (body b) fuel s gone)).mono
    (fun r s' gone => ?_) fun _ => id
  cases r <;> exact gone

theorem relates_bind (lasting : ∀ op s, escaped s → escaped (first op s).state)
    {start : Program S β} {rest : β → Program S α} {middle : β → σ₁ → σ₂ → Prop}
    {returned : α → σ₁ → σ₂ → Prop}
    (begun : Relates first second before start middle stopped escaped)
    (finish : ∀ b, Relates first second (middle b) (rest b) returned stopped escaped) :
    Relates first second before (start >>= rest) returned stopped escaped := by
  intro fuel s₁ s₂ given
  simp only [run_bind]
  generalize first_run : start.run first fuel s₁ = o₁
  generalize second_run : start.run second fuel s₂ = o₂
  have related := begun fuel s₁ s₂ given
  rw [first_run, second_run] at related
  cases related with
  | escape gone =>
    refine .escape ?_
    cases o₁ with
    | done value s => exact run_escaped lasting (rest value) fuel s gone
    | halted reason s => exact gone
    | looping s => exact gone
  | done holds => exact finish _ fuel _ _ holds
  | halted holds => exact .halted holds
  | looping holds => exact .looping holds

theorem relates_loop (lasting : ∀ op s, escaped s → escaped (first op s).state)
    {body : β → Program S (β ⊕ α)} {start : β} (invariant : β → σ₁ → σ₂ → Prop)
    {returned : α → σ₁ → σ₂ → Prop}
    (kept : ∀ b, Relates first second (invariant b) (body b)
      (fun r s₁ s₂ => match r with
        | .inl again => invariant again s₁ s₂
        | .inr value => returned value s₁ s₂) stopped escaped)
    (pause : ∀ b s₁ s₂, invariant b s₁ s₂ → stopped s₁ s₂) :
    Relates first second (invariant start) (loop body start) returned stopped escaped := by
  intro fuel s₁ s₂ given
  simp only [run_loop]
  have all : ∀ rounds b s₁ s₂, invariant b s₁ s₂ → Outcome.Related returned stopped escaped
      (iterate (fun at_ s => (body at_).run first fuel s) rounds b s₁)
      (iterate (fun at_ s => (body at_).run second fuel s) rounds b s₂) := by
    intro rounds
    induction rounds with
    | zero => exact fun b s₁ s₂ holds => .looping (pause b s₁ s₂ holds)
    | succ rounds ih =>
      intro b s₁ s₂ holds
      simp only [iterate]
      generalize first_run : (body b).run first fuel s₁ = o₁
      generalize second_run : (body b).run second fuel s₂ = o₂
      have related := kept b fuel s₁ s₂ holds
      rw [first_run, second_run] at related
      cases related with
      | escape gone =>
        refine .escape ?_
        cases o₁ with
        | done value s =>
          cases value with
          | inl again => exact iterate_escaped lasting body fuel rounds again s gone
          | inr value => exact gone
        | halted reason s => exact gone
        | looping s => exact gone
      | @done value s₁ s₂ holds =>
        cases value with
        | inl again => exact ih again s₁ s₂ holds
        | inr value => exact .done holds
      | halted holds => exact .halted holds
      | looping holds => exact .looping holds
  exact all fuel start s₁ s₂ given

/-- A program whose operations all keep the states related keeps them related. -/
theorem relates_of_ops (lasting : ∀ op s, escaped s → escaped (first op s).state)
    {contract : Contract S} {related : σ₁ → σ₂ → Prop} {program : Program S α}
    {result : α → Prop} (obeys : program.Obeys contract result)
    (step : ∀ op, contract.allowed op → ∀ s₁ s₂, related s₁ s₂ →
      Outcome.Related (fun r s₁ s₂ => contract.returns op r ∧ related s₁ s₂) stopped escaped
        (first op s₁) (second op s₂))
    (pause : ∀ s₁ s₂, related s₁ s₂ → stopped s₁ s₂) :
    Relates first second related program (fun a s₁ s₂ => result a ∧ related s₁ s₂) stopped
      escaped := by
  induction program with
  | ret value => exact relates_pure fun _ _ given => ⟨obeys, given⟩
  | seq start rest ihStart ihRest =>
    refine relates_bind lasting (ihStart obeys) fun b => ?_
    intro fuel s₁ s₂ given
    exact ihRest b given.1 fuel s₁ s₂ given.2
  | perform op =>
    refine relates_perform fun s₁ s₂ given => ?_
    exact (step op obeys.1 s₁ s₂ given).mono
      (fun r _ _ both => ⟨obeys.2 r both.1, both.2⟩) fun _ _ => id
  | loop body start ih =>
    obtain ⟨keep, begun, kept⟩ := obeys
    intro fuel s₁ s₂ given
    refine relates_loop lasting (fun b s₁ s₂ => keep b ∧ related s₁ s₂)
      (fun b fuel s₁ s₂ both => ?_) (fun b s₁ s₂ both => pause s₁ s₂ both.2) fuel s₁ s₂
      ⟨begun, given⟩
    refine (ih b (kept b both.1) fuel s₁ s₂ both.2).mono (fun r _ _ met => ?_) fun _ _ => id
    cases r with
    | inl again => exact met
    | inr value => exact met

end Relates

end Program

end Perdition.Lib
