import Perdition.Lib.Relation

/-!
# Runs whose operations are kept

A handler may keep a list of the operations it is given beside its state. The runs are the same
runs, and a part of a program that performs nothing of a kind leaves what was kept of that kind.
-/
namespace Perdition.Lib

open Program

variable {S : Signature} {σ ε α β : Type}

/-- The handler, with the operations it was given, the latest one last. -/
def observed (handler : Handler S σ ε) : Handler S (σ × List S.Op) ε := fun op s =>
  match handler op s.1 with
  | .done r state => .done r (state, s.2 ++ [op])
  | .halted why state => .halted why (state, s.2 ++ [op])
  | .looping state => .looping (state, s.2 ++ [op])

/-- The operations of a run. -/
def operations (handler : Handler S σ ε) (fuel : Nat) (program : Program S α) (state : σ) :
    List S.Op :=
  (program.run (observed handler) fuel (state, [])).state.2

/-- Keeping the operations changes nothing in a run. -/
theorem observed_run (handler : Handler S σ ε) (fuel : Nat) (program : Program S α)
    (s : σ × List S.Op) :
    Outcome.Related (fun _ s state => s.1 = state) (fun s state => s.1 = state) (fun _ => False)
      (program.run (observed handler) fuel s) (program.run handler fuel s.1) := by
  have related : Relates (observed handler) handler (fun s state => s.1 = state) program
      (fun _ s state => True ∧ s.1 = state) (fun s state => s.1 = state) fun _ => False := by
    refine relates_of_ops (fun _ _ gone => gone) (obeys_any program) ?_ fun _ _ => id
    intro op _ s state same
    subst same
    unfold observed
    cases handler op s.1 with
    | done r state => exact .done ⟨trivial, rfl⟩
    | halted why state => exact .halted rfl
    | looping state => exact .looping rfl
  exact (related fuel s s.1 rfl).mono (fun _ _ _ both => both.2) fun _ _ => id

/-- An operation is kept, and leaves the state it leaves. -/
theorem observed_meets {handler : Handler S σ ε} {op : S.Op} {s : σ × List S.Op}
    {returned : S.Res op → σ × List S.Op → Prop} {stopped : σ × List S.Op → Prop}
    (met : (handler op s.1).Meets (fun r state => returned r (state, s.2 ++ [op]))
      fun state => stopped (state, s.2 ++ [op])) :
    (observed handler op s).Meets returned stopped := by
  unfold observed
  cases result : handler op s.1 with
  | done r state => rw [result] at met; exact met
  | halted why state => rw [result] at met; exact met
  | looping state => rw [result] at met; exact met

/-- The operation is kept, whatever it comes to. -/
theorem observed_ops (handler : Handler S σ ε) (op : S.Op) (s : σ × List S.Op) :
    (observed handler op s).state.2 = s.2 ++ [op] := by
  unfold observed
  cases handler op s.1 <;> rfl

theorem observed_done {handler : Handler S σ ε} {op : S.Op} {s : σ × List S.Op} {r : S.Res op}
    {state : σ} (done : handler op s.1 = .done r state) :
    observed handler op s = .done r (state, s.2 ++ [op]) := by
  unfold observed
  rw [done]

/-- An operation that goes together with another one does so when it is kept. -/
theorem observed_related {σ₂ : Type} {handler : Handler S σ ε} {op : S.Op} {s : σ × List S.Op}
    {other : Outcome σ₂ ε (S.Res op)} {returned : S.Res op → σ → σ₂ → Prop}
    {stopped : σ → σ₂ → Prop} (escaped : σ × List S.Op → Prop)
    (related : Outcome.Related returned stopped (fun _ => False) (handler op s.1) other) :
    Outcome.Related (fun r s' s₂ => s'.2 = s.2 ++ [op] ∧ returned r s'.1 s₂)
      (fun s' s₂ => stopped s'.1 s₂) escaped (observed handler op s) other := by
  unfold observed
  generalize handler op s.1 = one at related ⊢
  cases related with
  | escape gone => exact absurd gone id
  | done holds => exact .done ⟨rfl, holds⟩
  | halted holds => exact .halted holds
  | looping holds => exact .looping holds

/-- A program that performs operations of one kind only adds none of another kind. -/
theorem observed_all (handler : Handler S σ ε) {kind : S.Op → Prop} {program : Program S α}
    {result : α → Prop} (obeys : program.Obeys ⟨kind, fun _ _ => True⟩ result) (fuel : Nat)
    (s : σ × List S.Op) (before : ∀ op ∈ s.2, kind op) :
    ∀ op ∈ (program.run (observed handler) fuel s).state.2, kind op := by
  have kept : Triple (observed handler) (fun s => ∀ op ∈ s.2, kind op) program
      (fun a s => result a ∧ ∀ op ∈ s.2, kind op) fun s => ∀ op ∈ s.2, kind op := by
    refine triple_of_obeys obeys (fun op allowed s before => ?_) fun _ => id
    have after : ∀ other ∈ (observed handler op s).state.2, kind other := by
      rw [observed_ops]
      intro other member
      rcases List.mem_append.mp member with old | new
      · exact before other old
      · rw [List.mem_singleton.mp new]
        exact allowed
    exact (Outcome.meets_iff_state.mpr after).mono (fun _ _ all => ⟨trivial, all⟩) fun _ => id
  exact Outcome.meets_iff_state.mp
    ((kept fuel s before).mono (fun _ _ both => both.2) fun _ => id)

end Perdition.Lib
