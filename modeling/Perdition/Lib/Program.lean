/-!
# Programs with operations

A program is a tree of pure steps, operations of a signature and unbounded loops. Its meaning is
given by a handler, which says what each operation does to a state; a loop is given a bounded
number of iterations, so that every run is computable. Nothing here depends on what the operations
are: a read, a write, a note in a log.

The rules below carry a property through a program. `run_invariant` keeps a state predicate that
every operation keeps, `Triple` is a partial correctness logic in which a stopped run has a
postcondition too, and `Obeys` reasons about a program under every handler that respects a
contract of its operations.
-/
namespace Perdition.Lib

/-- The operations of an interface and the type of what each returns. -/
structure Signature where
  /-- Operations. -/
  Op : Type
  /-- What an operation returns. -/
  Res : Op → Type

/-- Programs over a signature. -/
inductive Program (S : Signature) : Type → Type 1 where
  /-- Return a value. -/
  | ret {α : Type} (value : α) : Program S α
  /-- Run one program, then the program its value selects. -/
  | seq {α β : Type} (first : Program S β) (next : β → Program S α) : Program S α
  /-- Perform one operation. -/
  | perform (op : S.Op) : Program S (S.Res op)
  /-- Repeat a body until it returns on the right. -/
  | loop {α β : Type} (body : β → Program S (β ⊕ α)) (start : β) : Program S α

/-- How a run of a program ends. -/
inductive Outcome (σ ε α : Type) where
  /-- The program returned. -/
  | done (value : α) (state : σ)
  /-- An operation stopped the run. -/
  | halted (reason : ε) (state : σ)
  /-- The iterations given to a loop were used up. -/
  | looping (state : σ)
  deriving DecidableEq, Repr

/-- What each operation does to a state. -/
def Handler (S : Signature) (σ ε : Type) : Type :=
  (op : S.Op) → σ → Outcome σ ε (S.Res op)

variable {S : Signature} {σ ε α β : Type}

namespace Outcome

/-- The state an outcome ends in. -/
def state : Outcome σ ε α → σ
  | done _ state => state
  | halted _ state => state
  | looping state => state

/-- Continue an outcome that returned. -/
def next (outcome : Outcome σ ε β) (continue_ : β → σ → Outcome σ ε α) : Outcome σ ε α :=
  match outcome with
  | done value state => continue_ value state
  | halted reason state => halted reason state
  | looping state => looping state

/-- A value and its state are as required when the run returned, and its state is as required when
the run stopped. -/
def Meets (returned : α → σ → Prop) (stopped : σ → Prop) : Outcome σ ε α → Prop
  | done value state => returned value state
  | halted _ state => stopped state
  | looping state => stopped state

@[simp] theorem next_done (value : β) (state : σ) (continue_ : β → σ → Outcome σ ε α) :
    (done value state).next continue_ = continue_ value state := rfl

@[simp] theorem next_halted (reason : ε) (state : σ) (continue_ : β → σ → Outcome σ ε α) :
    (halted reason state).next continue_ = halted reason state := rfl

@[simp] theorem next_looping (state : σ) (continue_ : β → σ → Outcome σ ε α) :
    (looping state).next continue_ = looping state := rfl

/-- A continued outcome is a result where the outcome is one and its continuation comes to it. -/
theorem next_eq_done {outcome : Outcome σ ε β} {continue_ : β → σ → Outcome σ ε α} {a : α} {s : σ} :
    outcome.next continue_ = .done a s ↔ ∃ b s', outcome = .done b s' ∧ continue_ b s' = .done a s := by
  constructor
  · intro same
    cases outcome with
    | done b s' => exact ⟨b, s', rfl, same⟩
    | halted reason s' => simp at same
    | looping s' => simp at same
  · intro ⟨b, s', first, same⟩
    rw [first]
    exact same

/-- Weaker requirements are met too. -/
theorem Meets.mono {outcome : Outcome σ ε α} {returned returned' : α → σ → Prop}
    {stopped stopped' : σ → Prop} (met : outcome.Meets returned stopped)
    (value : ∀ a s, returned a s → returned' a s) (stop : ∀ s, stopped s → stopped' s) :
    outcome.Meets returned' stopped' := by
  cases outcome with
  | done a s => exact value a s met
  | halted reason s => exact stop s met
  | looping s => exact stop s met

/-- A requirement on the state alone is one on the final state. -/
theorem meets_iff_state {outcome : Outcome σ ε α} {required : σ → Prop} :
    outcome.Meets (fun _ s => required s) required ↔ required outcome.state := by
  cases outcome <;> exact Iff.rfl

/-- A continued outcome meets what its continuation establishes. -/
theorem Meets.next {outcome : Outcome σ ε β} {continue_ : β → σ → Outcome σ ε α}
    {middle : β → σ → Prop} {returned : α → σ → Prop} {stopped : σ → Prop}
    (met : outcome.Meets middle stopped)
    (rest : ∀ b s, middle b s → (continue_ b s).Meets returned stopped) :
    (outcome.next continue_).Meets returned stopped := by
  cases outcome with
  | done b s => exact rest b s met
  | halted reason s => exact met
  | looping s => exact met

end Outcome

/-- At most the given number of iterations of a step. -/
def iterate (step : β → σ → Outcome σ ε (β ⊕ α)) : Nat → β → σ → Outcome σ ε α
  | 0, _, state => .looping state
  | fuel + 1, at_, state =>
    (step at_ state).next fun
      | .inl again, state' => iterate step fuel again state'
      | .inr value, state' => .done value state'

/-- An iteration keeps an invariant that each step keeps. -/
theorem iterate_meets {step : β → σ → Outcome σ ε (β ⊕ α)} (invariant : β → σ → Prop)
    {returned : α → σ → Prop} {stopped : σ → Prop}
    (kept : ∀ b s, invariant b s → (step b s).Meets
      (fun r s' => match r with
        | .inl again => invariant again s'
        | .inr value => returned value s') stopped)
    (pause : ∀ b s, invariant b s → stopped s) (fuel : Nat) :
    ∀ b s, invariant b s → (iterate step fuel b s).Meets returned stopped := by
  induction fuel with
  | zero => exact fun b s holds => pause b s holds
  | succ fuel ih =>
    intro b s holds
    refine (kept b s holds).next fun r s' after => ?_
    cases r with
    | inl again => exact ih again s' after
    | inr value => exact after

/-- More iterations of a step that returns wherever the first one does. -/
theorem iterate_more {step step' : β → σ → Outcome σ ε (β ⊕ α)}
    (more : ∀ b s r s', step b s = .done r s' → step' b s = .done r s') {value : α} {last : σ}
    (fuel extra : Nat) : ∀ b s, iterate step fuel b s = .done value last →
      iterate step' (fuel + extra) b s = .done value last := by
  induction fuel with
  | zero => exact fun b s run => nomatch run
  | succ fuel ih =>
    intro b s run
    rw [Nat.add_right_comm, iterate]
    rw [iterate] at run
    cases first : step b s with
    | done r s' =>
      rw [first, Outcome.next_done] at run
      rw [more b s r s' first, Outcome.next_done]
      cases r with
      | inl again => exact ih again s' run
      | inr final => exact run
    | halted reason s' => rw [first] at run; cases run
    | looping s' => rw [first] at run; cases run

namespace Program

instance : Monad (Program S) where
  pure := ret
  bind := seq

/-- Run a program under a handler, with at most `fuel` iterations of each loop. -/
def run (handler : Handler S σ ε) (fuel : Nat) {α : Type} :
    Program S α → σ → Outcome σ ε α
  | ret value, state => .done value state
  | seq first rest, state =>
    (first.run handler fuel state).next fun value state' => (rest value).run handler fuel state'
  | perform op, state => handler op state
  | loop body start, state =>
    iterate (fun at_ state' => (body at_).run handler fuel state') fuel start state

section run

variable (handler : Handler S σ ε) (fuel : Nat)

@[simp] theorem run_pure (value : α) (state : σ) :
    (pure value : Program S α).run handler fuel state = .done value state := rfl

@[simp] theorem run_ret (value : α) (state : σ) :
    (ret value : Program S α).run handler fuel state = .done value state := rfl

@[simp] theorem run_bind (first : Program S β) (rest : β → Program S α) (state : σ) :
    (first >>= rest).run handler fuel state =
      (first.run handler fuel state).next fun value state' =>
        (rest value).run handler fuel state' := rfl

@[simp] theorem run_perform (op : S.Op) (state : σ) :
    (perform op).run handler fuel state = handler op state := rfl

theorem run_loop (body : β → Program S (β ⊕ α)) (start : β) (state : σ) :
    (loop body start).run handler fuel state =
      iterate (fun at_ state' => (body at_).run handler fuel state') fuel start state := rfl

@[simp] theorem run_ite (condition : Prop) [Decidable condition] (yes no : Program S α)
    (state : σ) :
    (if condition then yes else no).run handler fuel state =
      if condition then yes.run handler fuel state else no.run handler fuel state := by
  split <;> rfl

end run

/-- A run that returns returns the same with more iterations. -/
theorem run_more {handler : Handler S σ ε} (program : Program S α) (fuel extra : Nat) :
    ∀ {state last : σ} {value : α}, program.run handler fuel state = .done value last →
      program.run handler (fuel + extra) state = .done value last := by
  induction program with
  | ret value => exact id
  | seq first rest ihFirst ihRest =>
    intro state last value run_
    rw [run] at run_ ⊢
    cases begun : first.run handler fuel state with
    | done b s =>
      rw [begun, Outcome.next_done] at run_
      rw [ihFirst begun, Outcome.next_done]
      exact ihRest b run_
    | halted reason s => rw [begun] at run_; cases run_
    | looping s => rw [begun] at run_; cases run_
  | perform op => exact id
  | loop body start ih =>
    intro state last value run_
    exact iterate_more (fun b s r s' done => ih b done) fuel extra start state run_

/-! ## Programs over another signature -/

/-- Carry out every operation of a program by a program over another signature. -/
def interpret {T : Signature} (carry : (op : S.Op) → Program T (S.Res op)) {α : Type} :
    Program S α → Program T α
  | ret value => ret value
  | seq first rest => seq (first.interpret carry) fun value => (rest value).interpret carry
  | perform op => carry op
  | loop body start => loop (fun at_ => (body at_).interpret carry) start

/-- A program whose operations are carried out by others runs as under the handler that runs
those. -/
theorem run_interpret {T : Signature} (carry : (op : S.Op) → Program T (S.Res op))
    (handler : Handler T σ ε) (fuel : Nat) (program : Program S α) (state : σ) :
    (program.interpret carry).run handler fuel state =
      program.run (fun op state' => (carry op).run handler fuel state') fuel state := by
  induction program generalizing state with
  | ret value => rfl
  | seq first rest ihFirst ihRest =>
    simp only [interpret, run, ihFirst]
    congr 1
    funext value state'
    exact ihRest value state'
  | perform op => rfl
  | loop body start ih =>
    simp only [interpret, run]
    congr 1
    funext at_ state'
    exact ih at_ state'

/-! ## Partial correctness -/

/-- From states that meet the first predicate every run meets the second on return, and the third
wherever it stops. -/
def Triple (handler : Handler S σ ε) (before : σ → Prop) (program : Program S α)
    (after : α → σ → Prop) (stopped : σ → Prop) : Prop :=
  ∀ fuel s, before s → (program.run handler fuel s).Meets after stopped

section Triple

variable {handler : Handler S σ ε} {before before' : σ → Prop} {stopped stopped' : σ → Prop}

theorem triple_pure {value : α} {after : α → σ → Prop} (holds : ∀ s, before s → after value s) :
    Triple handler before (pure value) after stopped :=
  fun _ s given => holds s given

theorem triple_bind {first : Program S β} {rest : β → Program S α} {middle : β → σ → Prop}
    {after : α → σ → Prop} (start : Triple handler before first middle stopped)
    (finish : ∀ b, Triple handler (middle b) (rest b) after stopped) :
    Triple handler before (first >>= rest) after stopped :=
  fun fuel s given => (start fuel s given).next fun b s' reached => finish b fuel s' reached

theorem triple_perform {op : S.Op} {after : S.Res op → σ → Prop}
    (step : ∀ s, before s → (handler op s).Meets after stopped) :
    Triple handler before (perform op) after stopped :=
  fun _ s given => step s given

theorem triple_loop {body : β → Program S (β ⊕ α)} {start : β} (invariant : β → σ → Prop)
    {after : α → σ → Prop}
    (kept : ∀ b, Triple handler (invariant b) (body b)
      (fun r s => match r with
        | .inl again => invariant again s
        | .inr value => after value s) stopped)
    (pause : ∀ b s, invariant b s → stopped s) :
    Triple handler (invariant start) (loop body start) after stopped :=
  fun fuel s given =>
    iterate_meets invariant (fun b s' holds => kept b fuel s' holds) pause fuel start s given

theorem triple_ite {condition : Prop} [Decidable condition] {yes no : Program S α}
    {after : α → σ → Prop}
    (positive : condition → Triple handler before yes after stopped)
    (negative : ¬ condition → Triple handler before no after stopped) :
    Triple handler before (if condition then yes else no) after stopped := by
  split
  · exact positive ‹_›
  · exact negative ‹_›

theorem triple_mono {program : Program S α} {after after' : α → σ → Prop}
    (given : Triple handler before program after stopped)
    (weaker : ∀ s, before' s → before s) (value : ∀ a s, after a s → after' a s)
    (stop : ∀ s, stopped s → stopped' s) :
    Triple handler before' program after' stopped' :=
  fun fuel s holds => (given fuel s (weaker s holds)).mono value stop

/-- A precondition may be split on what it says beside the state. -/
theorem triple_exists {γ : Type} {family : γ → σ → Prop} {program : Program S α}
    {after : α → σ → Prop}
    (each : ∀ c, Triple handler (family c) program after stopped) :
    Triple handler (fun s => ∃ c, family c s) program after stopped :=
  fun fuel s ⟨c, holds⟩ => each c fuel s holds

/-- A part of the precondition that does not mention the state is a fact. -/
theorem triple_fact {fact : Prop} {program : Program S α} {after : α → σ → Prop}
    (given : fact → Triple handler before program after stopped) :
    Triple handler (fun s => fact ∧ before s) program after stopped :=
  fun fuel s ⟨known, holds⟩ => given known fuel s holds

end Triple

/-! ## Contracts of operations -/

/-- A contract says which operations may be performed and what each may return. -/
structure Contract (S : Signature) where
  /-- The operation may be performed. -/
  allowed : S.Op → Prop
  /-- The operation may return this. -/
  returns : (op : S.Op) → S.Res op → Prop

/-- A program keeps to the operations a contract allows, and returns a value as required whenever
the operations return what the contract says. -/
def Obeys (contract : Contract S) {α : Type} : Program S α → (α → Prop) → Prop
  | ret value, result => result value
  | seq first rest, result => first.Obeys contract fun value => (rest value).Obeys contract result
  | perform op, result => contract.allowed op ∧ ∀ r, contract.returns op r → result r
  | loop body start, result => ∃ invariant : _ → Prop, invariant start ∧
      ∀ b, invariant b → (body b).Obeys contract (Sum.elim invariant result)

section Obeys

variable {contract : Contract S}

@[simp] theorem obeys_pure {value : α} {result : α → Prop} :
    (pure value : Program S α).Obeys contract result ↔ result value := Iff.rfl

@[simp] theorem obeys_bind {first : Program S β} {rest : β → Program S α} {result : α → Prop} :
    (first >>= rest).Obeys contract result ↔
      first.Obeys contract fun value => (rest value).Obeys contract result := Iff.rfl

@[simp] theorem obeys_perform {op : S.Op} {result : S.Res op → Prop} :
    (perform op).Obeys contract result ↔
      contract.allowed op ∧ ∀ r, contract.returns op r → result r := Iff.rfl

theorem obeys_ite {condition : Prop} [Decidable condition] {yes no : Program S α}
    {result : α → Prop} (positive : condition → yes.Obeys contract result)
    (negative : ¬ condition → no.Obeys contract result) :
    (if condition then yes else no).Obeys contract result := by
  split
  · exact positive ‹_›
  · exact negative ‹_›

/-- A loop keeps to a contract when its body does from every value of an invariant. -/
theorem obeys_loop {body : β → Program S (β ⊕ α)} {start : β} {result : α → Prop}
    (invariant : β → Prop) (first : invariant start)
    (kept : ∀ b, invariant b → (body b).Obeys contract (Sum.elim invariant result)) :
    (loop body start).Obeys contract result := ⟨invariant, first, kept⟩

theorem obeys_mono {program : Program S α} {result result' : α → Prop}
    (holds : program.Obeys contract result) (weaker : ∀ a, result a → result' a) :
    program.Obeys contract result' := by
  induction program with
  | ret value => exact weaker _ holds
  | seq first rest ihFirst ihRest =>
    exact ihFirst holds fun b inner => ihRest b inner weaker
  | perform op => exact ⟨holds.1, fun r given => weaker r (holds.2 r given)⟩
  | loop body start ih =>
    obtain ⟨invariant, first, kept⟩ := holds
    refine ⟨invariant, first, fun b given => ih b (kept b given) fun r => ?_⟩
    cases r with
    | inl again => exact id
    | inr value => exact weaker value

/-- A program keeps to every contract that allows more and promises no less. -/
theorem obeys_within {outer : Contract S} {program : Program S α} {result : α → Prop}
    (holds : program.Obeys contract result)
    (wider : ∀ op, contract.allowed op → outer.allowed op)
    (stronger : ∀ op r, outer.returns op r → contract.returns op r) :
    program.Obeys outer result := by
  induction program with
  | ret value => exact holds
  | seq first rest ihFirst ihRest =>
    exact obeys_bind.mpr (obeys_mono (ihFirst holds) fun b inner => ihRest b inner)
  | perform op => exact ⟨wider op holds.1, fun r given => holds.2 r (stronger op r given)⟩
  | loop body start ih =>
    obtain ⟨invariant, first, kept⟩ := holds
    exact ⟨invariant, first, fun b given => ih b (kept b given)⟩

/-- A part of a program whose value does not matter. -/
theorem obeys_then {first : Program S β} {rest : β → Program S α} {result : α → Prop}
    (start : first.Obeys contract fun _ => True)
    (finish : ∀ b, (rest b).Obeys contract result) :
    (first >>= rest).Obeys contract result :=
  obeys_bind.mpr (obeys_mono start fun b _ => finish b)

/-- A program that starts with an operation. -/
theorem obeys_step {op : S.Op} {rest : S.Res op → Program S α} {result : α → Prop}
    (allowed : contract.allowed op)
    (finish : ∀ r, contract.returns op r → (rest r).Obeys contract result) :
    (perform op >>= rest).Obeys contract result := ⟨allowed, finish⟩

/-- A loop whose value does not matter. -/
theorem obeys_loop_any {body : β → Program S (β ⊕ α)} {start : β}
    (kept : ∀ b, (body b).Obeys contract fun _ => True) :
    (loop body start).Obeys contract fun _ => True :=
  ⟨fun _ => True, trivial, fun b _ => obeys_mono (kept b) fun r _ => by cases r <;> trivial⟩

/-- The contract that allows everything and promises nothing. -/
def Contract.any : Contract S := ⟨fun _ => True, fun _ _ => True⟩

/-- Every program keeps to the contract that allows everything. -/
theorem obeys_any (program : Program S α) : program.Obeys Contract.any fun _ => True := by
  induction program with
  | ret value => trivial
  | seq first rest ihFirst ihRest =>
    exact obeys_bind.mpr (obeys_mono ihFirst fun b _ => ihRest b)
  | perform op => exact ⟨trivial, fun _ _ => trivial⟩
  | loop body start ih => exact obeys_loop_any ih

/-- Under the contract that allows everything only the last part of a program decides. -/
theorem obeys_bind_any {first : Program S β} {rest : β → Program S α} {result : α → Prop}
    (finish : ∀ b, (rest b).Obeys Contract.any result) :
    (first >>= rest).Obeys Contract.any result :=
  obeys_bind.mpr (obeys_mono (obeys_any first) fun b _ => finish b)

/-- Where every operation of a program is carried out within another contract, so is the program. -/
theorem obeys_interpret {T : Signature} {carry : (op : S.Op) → Program T (S.Res op)}
    {outer : Contract T} {program : Program S α} {result : α → Prop}
    (holds : program.Obeys contract result)
    (carried : ∀ op, contract.allowed op → (carry op).Obeys outer (contract.returns op)) :
    (program.interpret carry).Obeys outer result := by
  induction program with
  | ret value => exact holds
  | seq first rest ihFirst ihRest =>
    exact obeys_bind.mpr (obeys_mono (ihFirst holds) fun b inner => ihRest b inner)
  | perform op => exact obeys_mono (carried op holds.1) holds.2
  | loop body start ih =>
    obtain ⟨keep, first, kept⟩ := holds
    refine ⟨keep, first, fun b given => obeys_mono (ih b (kept b given)) fun r met => ?_⟩
    cases r with
    | inl again => exact met
    | inr value => exact met

/-- A handler that keeps an invariant and the contract on every allowed operation keeps the
invariant along the whole program, whose value is then as required. -/
theorem triple_of_obeys {handler : Handler S σ ε} {invariant stopped : σ → Prop}
    {program : Program S α} {result : α → Prop} (holds : program.Obeys contract result)
    (step : ∀ op, contract.allowed op → ∀ s, invariant s →
      (handler op s).Meets (fun r s' => contract.returns op r ∧ invariant s') stopped)
    (pause : ∀ s, invariant s → stopped s) :
    Triple handler invariant program (fun a s => result a ∧ invariant s) stopped := by
  induction program with
  | ret value => exact fun _ s given => ⟨holds, given⟩
  | seq first rest ihFirst ihRest =>
    intro fuel s given
    exact (ihFirst holds fuel s given).next fun b s' reached =>
      ihRest b reached.1 fuel s' reached.2
  | perform op =>
    intro _ s given
    exact (step op holds.1 s given).mono (fun r s' met => ⟨holds.2 r met.1, met.2⟩) fun _ => id
  | loop body start ih =>
    obtain ⟨keep, first, kept⟩ := holds
    intro fuel s given
    refine iterate_meets (fun b s' => keep b ∧ invariant s') (fun b s' both => ?_)
      (fun b s' both => pause s' both.2) fuel start s ⟨first, given⟩
    refine (ih b (kept b both.1) fuel s' both.2).mono (fun r s'' met => ?_) fun _ => id
    cases r with
    | inl again => exact met
    | inr value => exact met

end Obeys

/-- A run returns a value that the program returns under every handler. -/
theorem run_returns {handler : Handler S σ ε} {program : Program S α} {result : α → Prop}
    (holds : program.Obeys Contract.any result) {fuel : Nat} {s s' : σ} {a : α}
    (run : program.run handler fuel s = .done a s') : result a := by
  have obeyed : Triple handler (fun _ => True) program (fun a _ => result a ∧ True) fun _ => True :=
    triple_of_obeys holds (fun op _ s _ => by
      cases handler op s with
      | done => exact ⟨trivial, trivial⟩
      | halted => trivial
      | looping => trivial) fun _ _ => trivial
  have met := obeyed fuel s trivial
  rw [run] at met
  exact met.1

/-- A state predicate that every operation keeps holds wherever a run ends. -/
theorem run_invariant {handler : Handler S σ ε} {invariant : σ → Prop} (program : Program S α)
    (step : ∀ op s, invariant s → invariant (handler op s).state) (fuel : Nat) (s : σ)
    (given : invariant s) : invariant (program.run handler fuel s).state := by
  have obeyed : Triple handler invariant program (fun _ s' => True ∧ invariant s') invariant :=
    triple_of_obeys (obeys_any program)
    (fun op _ s' holds => (Outcome.meets_iff_state.mpr (step op s' holds)).mono
      (fun _ _ kept => ⟨trivial, kept⟩) fun _ => id)
    (fun _ => id)
  exact Outcome.meets_iff_state.mp
    ((obeyed fuel s given).mono (fun _ _ both => both.2) fun _ => id)

end Program

end Perdition.Lib
