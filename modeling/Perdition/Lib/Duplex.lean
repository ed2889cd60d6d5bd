import Mathlib.Data.List.Infix
import Mathlib.Data.Sum.Basic
import Mathlib.Logic.Relation

/-!
# Two processes joined by two streams

A process hears one stream and says another, and what it does with more of the stream begins with
what it did without it: a process that has come to the end of what it can hear waits. Two processes
are joined when each hears what the other says. The units on the way may be delivered in parts of
any size and in any order of the two directions, and where the two processes have one history of
the conversation, each from its side, every order of deliveries ends in it.
-/
namespace Perdition.Lib

variable {α : Type}

/-! ## Histories -/

/-- The units that were heard, which a history has on the left. -/
def heardIn (history : List (α ⊕ α)) : List α := history.filterMap Sum.getLeft?

/-- The units that were said, which a history has on the right. -/
def saidIn (history : List (α ⊕ α)) : List α := history.filterMap Sum.getRight?

/-- The history as the other side has it. -/
def mirrored (history : List (α ⊕ α)) : List (α ⊕ α) := history.map Sum.swap

@[simp] theorem heardIn_nil : heardIn ([] : List (α ⊕ α)) = [] := rfl

@[simp] theorem saidIn_nil : saidIn ([] : List (α ⊕ α)) = [] := rfl

@[simp] theorem heardIn_append (front back : List (α ⊕ α)) :
    heardIn (front ++ back) = heardIn front ++ heardIn back := List.filterMap_append

@[simp] theorem saidIn_append (front back : List (α ⊕ α)) :
    saidIn (front ++ back) = saidIn front ++ saidIn back := List.filterMap_append

@[simp] theorem heardIn_heard (units : List α) : heardIn (units.map Sum.inl) = units := by
  simp [heardIn, List.filterMap_map, Function.comp_def]

@[simp] theorem heardIn_said (units : List α) : heardIn (units.map Sum.inr) = [] := by
  simp [heardIn, List.filterMap_map, Function.comp_def]

@[simp] theorem saidIn_heard (units : List α) : saidIn (units.map Sum.inl) = [] := by
  simp [saidIn, List.filterMap_map, Function.comp_def]

@[simp] theorem saidIn_said (units : List α) : saidIn (units.map Sum.inr) = units := by
  simp [saidIn, List.filterMap_map, Function.comp_def]

theorem heardIn_mirrored (history : List (α ⊕ α)) : heardIn (mirrored history) = saidIn history := by
  simp only [heardIn, mirrored, saidIn, List.filterMap_map]
  congr 1
  funext unit_
  cases unit_ <;> rfl

theorem saidIn_mirrored (history : List (α ⊕ α)) : saidIn (mirrored history) = heardIn history := by
  simp only [heardIn, mirrored, saidIn, List.filterMap_map]
  congr 1
  funext unit_
  cases unit_ <;> rfl

/-- Every unit was heard or said. -/
theorem length_heardIn_saidIn (history : List (α ⊕ α)) :
    (heardIn history).length + (saidIn history).length = history.length := by
  induction history with
  | nil => rfl
  | cons unit_ history ih =>
    cases unit_ with
    | inl heard =>
      change (heardIn history).length + 1 + (saidIn history).length = history.length + 1
      omega
    | inr said =>
      change (heardIn history).length + ((saidIn history).length + 1) = history.length + 1
      omega

theorem saidIn_front {front whole : List (α ⊕ α)} (part : front <+: whole) :
    saidIn front <+: saidIn whole := part.filterMap _

theorem mirrored_front {front whole : List (α ⊕ α)} (part : front <+: whole) :
    mirrored front <+: mirrored whole := part.map _

@[simp] theorem mirrored_append (front back : List (α ⊕ α)) :
    mirrored (front ++ back) = mirrored front ++ mirrored back := List.map_append

/-! ## Processes -/

/-- A process that waits for what it cannot hear yet. -/
structure Process (α : Type) where
  /-- What it hears and says, in order, where so much can be heard. -/
  history : List α → List (α ⊕ α)
  /-- It hears no more than what can be heard. -/
  within : ∀ stream, heardIn (history stream) <+: stream
  /-- Where more can be heard it goes on from where it waited, by hearing the next unit. -/
  waits : ∀ stream more, ∃ rest, history (stream ++ more) = history stream ++ rest ∧
    (rest = [] ∨ heardIn (history stream) = stream ∧ ∃ first tail, rest = Sum.inl first :: tail)

namespace Process

variable (p q : Process α)

/-- More to hear makes the history longer. -/
theorem history_mono {stream stream' : List α} (part : stream <+: stream') :
    p.history stream <+: p.history stream' := by
  obtain ⟨more, rfl⟩ := part
  obtain ⟨rest, whole, -⟩ := p.waits stream more
  exact ⟨rest, whole.symm⟩

/-- A part of the history that needs no more than what can be heard is history already. -/
theorem history_reaches {stream stream' : List α} {front : List (α ⊕ α)}
    (later : stream <+: stream') (part : front <+: p.history stream')
    (heard : heardIn front <+: stream) : front <+: p.history stream := by
  obtain ⟨more, rfl⟩ := later
  obtain ⟨rest, whole, stop⟩ := p.waits stream more
  rw [whole] at part
  rcases stop with none_ | ⟨all, first, tail, begins⟩
  · rwa [none_, List.append_nil] at part
  · rcases List.prefix_or_prefix_of_prefix part (List.prefix_append _ rest) with now | ⟨extra, longer⟩
    · exact now
    -- a longer part hears one more unit than can be heard
    · cases extra with
      | nil =>
        rw [List.append_nil] at longer
        rw [← longer]
      | cons unit_ extra =>
        rw [← longer, begins] at part
        have first_ : unit_ = Sum.inl first :=
          (List.cons_prefix_cons.mp ((List.prefix_append_right_inj _).mp part)).1
        have long := heard.length_le
        rw [← longer, first_, heardIn_append, all, List.length_append] at long
        have one : heardIn (Sum.inl first :: extra) = first :: heardIn extra := rfl
        rw [one, List.length_cons] at long
        omega

end Process

/-! ## Deliveries -/

/-- What was delivered to each of two processes. -/
structure Delivered (α : Type) where
  /-- What the first can hear. -/
  first : List α
  /-- What the second can hear. -/
  second : List α

/-- Nothing was delivered. -/
def Delivered.none : Delivered α := ⟨[], []⟩

/-- How much was delivered. -/
def Delivered.size (s : Delivered α) : Nat := s.first.length + s.second.length

/-- One or more units that one process has said are delivered to the other, in their order. -/
inductive Delivers (p q : Process α) : Delivered α → Delivered α → Prop where
  /-- Units are delivered to the first. -/
  | first {s : Delivered α} {more : List α} (some_ : more ≠ [])
    (said : s.first ++ more <+: saidIn (q.history s.second)) :
    Delivers p q s ⟨s.first ++ more, s.second⟩
  /-- Units are delivered to the second. -/
  | second {s : Delivered α} {more : List α} (some_ : more ≠ [])
    (said : s.second ++ more <+: saidIn (p.history s.first)) :
    Delivers p q s ⟨s.first, s.second ++ more⟩

/-- What may have been delivered at some time. -/
def InFlight (p q : Process α) : Delivered α → Prop :=
  Relation.ReflTransGen (Delivers p q) Delivered.none

/-- A process has said what it says in a conversation, each unit after no more than it hears before it
there. It may leave units unheard. -/
structure Recites (history whole : List (α ⊕ α)) : Prop where
  /-- It has said the same. -/
  said : saidIn history = saidIn whole
  /-- No unit later. -/
  keeps : ∀ front, front <+: whole → ∃ front', front' <+: history ∧
    saidIn front' = saidIn front ∧ heardIn front' <+: heardIn front

/-- What is heard and said in the order of the conversation follows it. -/
theorem recites_self (whole : List (α ⊕ α)) : Recites whole whole :=
  ⟨rfl, fun front part => ⟨front, part, rfl, List.prefix_rfl⟩⟩

/-- Units that were not heard before the last ones were said. -/
theorem recites_unheard (front : List (α ⊕ α)) (left last : List α) :
    Recites (front ++ last.map Sum.inr) (front ++ left.map Sum.inl ++ last.map Sum.inr) := by
  refine ⟨by simp, fun part begins => ?_⟩
  rw [List.append_assoc] at begins
  rcases List.prefix_or_prefix_of_prefix begins (List.prefix_append ..) with early | ⟨later, whole⟩
  · exact ⟨part, early.trans (List.prefix_append ..), rfl, List.prefix_rfl⟩
  subst whole
  have begins := (List.prefix_append_right_inj front).mp begins
  rcases List.prefix_or_prefix_of_prefix begins (List.prefix_append ..) with unheard | ⟨end_, whole⟩
  · refine ⟨front, List.prefix_append .., ?_, ?_⟩
    · have none_ := saidIn_front unheard
      rw [saidIn_heard, List.prefix_nil] at none_
      rw [saidIn_append, none_, List.append_nil]
    · rw [heardIn_append]
      exact List.prefix_append ..
  · subst whole
    have ending := (List.prefix_append_right_inj _).mp begins
    refine ⟨front ++ end_, (List.prefix_append_right_inj front).mpr ending, by simp, ?_⟩
    have none_ := ending.filterMap Sum.getLeft?
    rw [← heardIn, ← heardIn, heardIn_said, List.prefix_nil] at none_
    rw [heardIn_append, heardIn_append, none_, List.append_nil]
    exact List.prefix_append ..

/-- A whole conversation, as the first process has it, and how it is reached. -/
structure Converses (p q : Process α) (history : List (α ⊕ α)) : Prop where
  /-- Nothing else is ever delivered. -/
  only : ∀ s, InFlight p q s → s.first <+: heardIn history ∧ s.second <+: saidIn history
  /-- Until all of it was delivered something can be. -/
  goes : ∀ s, InFlight p q s →
    s = ⟨heardIn history, saidIn history⟩ ∨ ∃ s', Delivers p q s s'
  /-- Each delivery leaves less to deliver. -/
  ends : ∀ s s', Delivers p q s s' → s.size < s'.size
  /-- The first process says its part. -/
  first : Recites (p.history (heardIn history)) history
  /-- So does the second. -/
  second : Recites (q.history (saidIn history)) (mirrored history)

section Converses

variable {p q : Process α} {s s' : Delivered α} {history : List (α ⊕ α)}

/-- A delivery delivers something. -/
theorem Delivers.grows (step : Delivers p q s s') : s.size < s'.size := by
  cases step with
  | first some_ said =>
    have positive := List.length_pos_iff.mpr some_
    simp only [Delivered.size, List.length_append]
    omega
  | second some_ said =>
    have positive := List.length_pos_iff.mpr some_
    simp only [Delivered.size, List.length_append]
    omega

section Parts

variable (ours : Recites (p.history (heardIn history)) history)
  (theirs : Recites (q.history (saidIn history)) (mirrored history))

include ours theirs

/-- What is delivered is within the conversation. -/
theorem inFlight_within (reached : InFlight p q s) :
    s.first <+: heardIn history ∧ s.second <+: saidIn history := by
  induction reached with
  | refl => exact ⟨List.nil_prefix, List.nil_prefix⟩
  | tail _ step ih =>
    cases step with
    | first some_ said =>
      refine ⟨said.trans ?_, ih.2⟩
      have more := saidIn_front (q.history_mono ih.2)
      rwa [theirs.said, saidIn_mirrored] at more
    | second some_ said =>
      refine ⟨ih.1, said.trans ?_⟩
      have more := saidIn_front (p.history_mono ih.1)
      rwa [ours.said] at more

/-- Where all that was said is delivered, all of the conversation is: the next unit would be said by
the process that has heard all before it. -/
theorem delivered_all (within : s.first <+: heardIn history ∧ s.second <+: saidIn history)
    (first : saidIn (q.history s.second) <+: s.first)
    (second : saidIn (p.history s.first) <+: s.second) :
    ∀ front, front <+: history → heardIn front <+: s.first ∧ saidIn front <+: s.second := by
  intro front
  induction front using List.reverseRecOn with
  | nil => exact fun _ => ⟨List.nil_prefix, List.nil_prefix⟩
  | append_singleton front unit_ ih =>
    intro part
    have before := ih ((List.prefix_append _ _).trans part)
    cases unit_ with
    | inl unit_ =>
      have none_ : saidIn [(Sum.inl unit_ : α ⊕ α)] = [] := rfl
      obtain ⟨front', begins, same, hears⟩ := theirs.keeps _ (mirrored_front part)
      rw [heardIn_mirrored, saidIn_append, none_, List.append_nil] at hears
      have said := saidIn_front (q.history_reaches within.2 begins (hears.trans before.2))
      rw [same, saidIn_mirrored] at said
      rw [saidIn_append, none_, List.append_nil]
      exact ⟨said.trans first, before.2⟩
    | inr unit_ =>
      have none_ : heardIn [(Sum.inr unit_ : α ⊕ α)] = [] := rfl
      obtain ⟨front', begins, same, hears⟩ := ours.keeps _ part
      rw [heardIn_append, none_, List.append_nil] at hears ⊢
      have said := saidIn_front (p.history_reaches within.1 begins (hears.trans before.1))
      rw [same] at said
      exact ⟨before.1, said.trans second⟩

/-- Two processes that say the two parts of a conversation have no other, in whatever parts and order
it is delivered. -/
theorem converses_of_recites : Converses p q history where
  only _ reached := inFlight_within ours theirs reached
  goes s reached := by
    have within := inFlight_within ours theirs reached
    have toFirst := (saidIn_front (q.history_mono within.2))
    have toSecond := (saidIn_front (p.history_mono within.1))
    rw [theirs.said, saidIn_mirrored] at toFirst
    rw [ours.said] at toSecond
    by_cases first : saidIn (q.history s.second) <+: s.first
    · by_cases second : saidIn (p.history s.first) <+: s.second
      · have all := delivered_all ours theirs within first second history List.prefix_rfl
        have one : s.first = heardIn history := within.1.eq_of_length_le all.1.length_le
        have two : s.second = saidIn history := within.2.eq_of_length_le all.2.length_le
        exact .inl (by rw [← one, ← two])
      · rcases List.prefix_or_prefix_of_prefix toSecond within.2 with said | ⟨more, said⟩
        · exact absurd said second
        · refine .inr ⟨_, @Delivers.second _ p q s more (fun none_ => second ?_) ⟨[], by simp [said]⟩⟩
          rw [← said, none_, List.append_nil]
    · rcases List.prefix_or_prefix_of_prefix toFirst within.1 with said | ⟨more, said⟩
      · exact absurd said first
      · refine .inr ⟨_, @Delivers.first _ p q s more (fun none_ => first ?_) ⟨[], by simp [said]⟩⟩
        rw [← said, none_, List.append_nil]
  ends _ _ step := step.grows
  first := ours
  second := theirs

end Parts

end Converses

end Perdition.Lib
