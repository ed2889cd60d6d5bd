import Perdition.Lib.Duplex
import Perdition.Lib.Program

/-!
# Programs as processes

A program whose handler takes units from a stream, run where so much of the stream can be heard. A
run that wants a unit after the last one waits from then on: whatever the handler makes of it, the
history counts no more. Where more of the stream can be heard the run is the same up to there, so
the program is a process.
-/
namespace Perdition.Lib

variable {S : Signature} {σ ε α β γ : Type}

/-- An outcome in other states. -/
def Outcome.mapState (change : σ → σ) : Outcome σ ε β → Outcome σ ε β
  | .done value state => .done value (change state)
  | .halted reason state => .halted reason (change state)
  | .looping state => .looping (change state)

/-- A handler that takes units from a stream. -/
structure Listener (S : Signature) (σ ε α : Type) where
  /-- What each operation does. -/
  handler : Handler S σ ε
  /-- More can be heard. -/
  feed : List α → σ → σ
  /-- What was heard and said up to the first wait. -/
  history : σ → List (α ⊕ α)
  /-- What can still be heard. -/
  unheard : σ → List α
  /-- A unit was wanted that could not be heard. -/
  Waiting : σ → Prop
  /-- Nothing more. -/
  feed_nil : ∀ s, feed [] s = s
  /-- More arrives behind what can be heard. -/
  feed_append : ∀ more more' s, feed (more ++ more') s = feed more' (feed more s)
  /-- That is no wait. -/
  waiting_feed : ∀ more s, Waiting (feed more s) ↔ Waiting s
  /-- What can be heard is not heard yet. -/
  history_feed : ∀ more s, history (feed more s) = history s
  /-- It can be heard after the rest. -/
  unheard_feed : ∀ more s, unheard (feed more s) = unheard s ++ more
  /-- An operation adds to the history. -/
  grows : ∀ op s, history s <+: history (handler op s).state
  /-- After a wait nothing does. -/
  still : ∀ op s, Waiting s →
    Waiting (handler op s).state ∧ history (handler op s).state = history s
  /-- What is heard comes from the stream. -/
  hears : ∀ op s, ¬ Waiting s → ¬ Waiting (handler op s).state →
    heardIn (history (handler op s).state) ++ unheard (handler op s).state =
      heardIn (history s) ++ unheard s
  /-- An operation does the same where more can be heard, or it waits for the first unit of it. -/
  fed : ∀ op s more, ¬ Waiting s →
    (¬ Waiting (handler op s).state ∧
      handler op (feed more s) = (handler op s).mapState (feed more)) ∨
    (Waiting (handler op s).state ∧ history (handler op s).state = history s ∧ unheard s = [] ∧
      ∀ first tail, more = first :: tail →
        history s ++ [Sum.inl first] <+: history (handler op (feed more s)).state)

namespace Listener

variable (L : Listener S σ ε α)

/-! ## Later states -/

/-- A state that a run may come to. -/
structure Later (s s' : σ) : Prop where
  /-- The history has become longer. -/
  grows : L.history s <+: L.history s'
  /-- After a wait it has not. -/
  still : L.Waiting s → L.Waiting s' ∧ L.history s' = L.history s

/-- Nothing has happened. -/
theorem later_refl (s : σ) : L.Later s s := ⟨List.prefix_rfl, fun waits => ⟨waits, rfl⟩⟩

theorem Later.step {L : Listener S σ ε α} {s s' : σ} (later : L.Later s s') (op : S.Op) :
    L.Later s (L.handler op s').state where
  grows := later.grows.trans (L.grows op s')
  still waits := by
    have now := later.still waits
    have after := L.still op s' now.1
    exact ⟨after.1, after.2.trans now.2⟩

/-- A run comes to a later state. -/
theorem run_later (program : Program S β) (fuel : Nat) {s s' : σ} (later : L.Later s s') :
    L.Later s (program.run L.handler fuel s').state :=
  Program.run_invariant program (fun op _ reached => reached.step op) fuel s' later

/-- So do the iterations of a loop. -/
theorem iterate_later (body : γ → Program S (γ ⊕ β)) (fuel rounds : Nat) (start : γ) {s s' : σ}
    (later : L.Later s s') :
    L.Later s (iterate (fun at_ s => (body at_).run L.handler fuel s) rounds start s').state := by
  refine Outcome.meets_iff_state.mp (iterate_meets (fun _ s' => L.Later s s')
    (fun b s' reached => ?_) (fun _ _ => id) rounds start s' later)
  refine (Outcome.meets_iff_state.mpr (L.run_later (body b) fuel reached)).mono
    (fun r s' reached => ?_) fun _ => id
  cases r <;> exact reached

/-! ## Runs where more can be heard -/

/-- One run has come to a wait, and the other has heard the unit it waits for. -/
structure Parted (more : List α) (s s' : σ) : Prop where
  /-- The first waits. -/
  waits : L.Waiting s
  /-- The second has heard more. -/
  heard : ∀ first tail, more = first :: tail →
    L.history s ++ [Sum.inl first] <+: L.history s'

/-- Runs that have parted stay so. -/
theorem Parted.later {L : Listener S σ ε α} {more : List α} {s s' t t' : σ}
    (parted : L.Parted more s s') (first : L.Later s t) (second : L.Later s' t') :
    L.Parted more t t' where
  waits := (first.still parted.waits).1
  heard unit_ tail same := by
    rw [(first.still parted.waits).2]
    exact (parted.heard unit_ tail same).trans second.grows

/-- A run, and the run of the same program where more can be heard. -/
def Fed (more : List α) (outcome outcome' : Outcome σ ε β) : Prop :=
  (¬ L.Waiting outcome.state ∧ outcome' = outcome.mapState (L.feed more)) ∨
    L.Parted more outcome.state outcome'.state

variable {L} in
/-- Continued runs go together as long as the continuations do, and stay apart once they have
parted. -/
theorem Fed.next {more : List α} {outcome outcome' : Outcome σ ε γ}
    {continue_ : γ → σ → Outcome σ ε β} (fed : L.Fed more outcome outcome')
    (rest : ∀ value s, ¬ L.Waiting s →
      L.Fed more (continue_ value s) (continue_ value (L.feed more s)))
    (later : ∀ value s s', L.Later s s' → L.Later s (continue_ value s').state) :
    L.Fed more (outcome.next continue_) (outcome'.next continue_) := by
  have after (outcome : Outcome σ ε γ) : L.Later outcome.state (outcome.next continue_).state := by
    cases outcome with
    | done value s => exact later value s s (L.later_refl s)
    | halted reason s => exact L.later_refl s
    | looping s => exact L.later_refl s
  rcases fed with ⟨live, same⟩ | parted
  · subst same
    cases outcome with
    | done value s => exact rest value s live
    | halted reason s => exact .inl ⟨live, rfl⟩
    | looping s => exact .inl ⟨live, rfl⟩
  · exact .inr (parted.later (after outcome) (after outcome'))

/-- Where more can be heard a run is the same, or it hears on where the other waits. -/
theorem run_fed (more : List α) (program : Program S β) (fuel : Nat) :
    ∀ s, ¬ L.Waiting s →
      L.Fed more (program.run L.handler fuel s) (program.run L.handler fuel (L.feed more s)) := by
  induction program with
  | ret value => exact fun s live => .inl ⟨live, rfl⟩
  | seq first rest ihFirst ihRest =>
    intro s live
    exact (ihFirst s live).next (fun value s live => ihRest value s live)
      fun value _ _ later => L.run_later (rest value) fuel later
  | perform op =>
    intro s live
    rcases L.fed op s more live with same | ⟨waits, history, -, heard⟩
    · exact .inl same
    · exact .inr ⟨waits, fun unit_ tail whole => history ▸ heard unit_ tail whole⟩
  | loop body start ih =>
    have rounds (count : Nat) : ∀ at_ s, ¬ L.Waiting s → L.Fed more
        (iterate (fun at_ s => (body at_).run L.handler fuel s) count at_ s)
        (iterate (fun at_ s => (body at_).run L.handler fuel s) count at_ (L.feed more s)) := by
      induction count with
      | zero => exact fun at_ s live => .inl ⟨live, rfl⟩
      | succ count ihCount =>
        intro at_ s live
        refine (ih at_ s live).next (fun value s live => ?_) fun value s s' later => ?_
        · cases value with
          | inl again => exact ihCount again s live
          | inr value => exact .inl ⟨live, rfl⟩
        · cases value with
          | inl again => exact L.iterate_later body fuel count again later
          | inr value => exact later
    exact rounds fuel start

/-! ## The process -/

/-- What was heard is the beginning of a stream, and all of it after a wait. -/
structure Hears (stream : List α) (s : σ) : Prop where
  /-- The rest can still be heard. -/
  live : ¬ L.Waiting s → heardIn (L.history s) ++ L.unheard s = stream
  /-- Nothing is left. -/
  waits : L.Waiting s → heardIn (L.history s) = stream

variable {L} in
/-- An operation hears what can be heard. -/
theorem Hears.step {stream : List α} {s : σ} (hears : L.Hears stream s) (op : S.Op) :
    L.Hears stream (L.handler op s).state := by
  by_cases waits : L.Waiting s
  · have after := L.still op s waits
    exact ⟨fun live => absurd after.1 live, fun _ => after.2 ▸ hears.waits waits⟩
  · refine ⟨fun live => (L.hears op s waits live).trans (hears.live waits), fun now => ?_⟩
    rcases L.fed op s [] waits with ⟨live, -⟩ | ⟨-, history, none_, -⟩
    · exact absurd now live
    · have whole := hears.live waits
      rwa [none_, List.append_nil, ← history] at whole

/-- Where a program starts: it has heard and said nothing, and nothing can be heard. -/
structure Fresh (s : σ) : Prop where
  /-- Nothing was heard or said. -/
  history : L.history s = []
  /-- Nothing can be heard. -/
  unheard : L.unheard s = []
  /-- It has not waited. -/
  live : ¬ L.Waiting s

variable {L} in
/-- A run hears what can be heard. -/
theorem Fresh.run_hears {start : σ} (fresh : L.Fresh start) (program : Program S β) (fuel : Nat)
    (stream : List α) :
    L.Hears stream (program.run L.handler fuel (L.feed stream start)).state := by
  refine Program.run_invariant program (fun op s hears => hears.step op) fuel _ ?_
  refine ⟨fun _ => ?_, fun waits => absurd ((L.waiting_feed stream start).mp waits) fresh.live⟩
  rw [L.history_feed, L.unheard_feed, fresh.history, fresh.unheard]
  rfl

section Process

variable {L} {start : σ} (fresh : L.Fresh start) (program : Program S β) (fuel : Nat)

include fresh

/-- A run hears no more than what can be heard. -/
theorem Fresh.run_within (stream : List α) :
    heardIn (L.history (program.run L.handler fuel (L.feed stream start)).state) <+: stream := by
  have hears := fresh.run_hears program fuel stream
  by_cases waits : L.Waiting (program.run L.handler fuel (L.feed stream start)).state
  · rw [hears.waits waits]
  · exact ⟨_, hears.live waits⟩

/-- A run goes on where more can be heard. -/
theorem Fresh.run_waits (stream more : List α) :
    ∃ rest, L.history (program.run L.handler fuel (L.feed (stream ++ more) start)).state =
        L.history (program.run L.handler fuel (L.feed stream start)).state ++ rest ∧
      (rest = [] ∨
        heardIn (L.history (program.run L.handler fuel (L.feed stream start)).state) = stream ∧
          ∃ first tail, rest = Sum.inl first :: tail) := by
  have live : ¬ L.Waiting (L.feed stream start) := fun waits =>
    fresh.live ((L.waiting_feed stream start).mp waits)
  have hears := fresh.run_hears program fuel stream
  rw [L.feed_append]
  rcases L.run_fed more program fuel (L.feed stream start) live with ⟨-, same⟩ | parted
  · refine ⟨[], ?_, .inl rfl⟩
    rw [same, List.append_nil]
    cases program.run L.handler fuel (L.feed stream start) <;> exact L.history_feed more _
  · cases more with
    | nil => exact ⟨[], by rw [L.feed_nil, List.append_nil], .inl rfl⟩
    | cons first tail =>
      obtain ⟨rest, whole⟩ := parted.heard first tail rfl
      refine ⟨Sum.inl first :: rest, ?_, .inr ⟨hears.waits parted.waits, first, rest, rfl⟩⟩
      rw [← whole, List.append_assoc]
      rfl

end Process

/-- A program as a process, from a fresh state. -/
def process (program : Program S β) (fuel : Nat) (start : σ) (fresh : L.Fresh start) :
    Process α where
  history stream := L.history (program.run L.handler fuel (L.feed stream start)).state
  within := fresh.run_within program fuel
  waits := fresh.run_waits program fuel

end Listener

end Perdition.Lib
