import Mathlib.Logic.Function.Basic
import Mathlib.Logic.Relation

/-!
# Clients and one server, joined by datagrams

Datagrams are on the way for any time, in any order, and may be lost. A server answers a request to
the one who sent it. What a client relies on is then its own request: whatever other clients ask, and
however often a request is repeated, what it hears is an answer to something it asked.
-/
namespace Perdition.Lib

/-- What a client does in a step. -/
inductive Act (μ : Type) where
  /-- Nothing that others see. -/
  | silent
  /-- It sends a datagram to the server. -/
  | sends (request : μ)
  /-- It takes a datagram of the server. -/
  | hears (reply : μ)

/-- Clients, and the datagrams on the way. -/
structure Net (ι σ μ : Type) where
  /-- The clients. -/
  clients : ι → σ
  /-- The datagrams to the server, each with its sender. -/
  requests : List (ι × μ)
  /-- The datagrams to clients, each with its receiver. -/
  replies : List (ι × μ)

namespace Net

variable {ι σ μ : Type}

/-- What holds of the clients and the datagrams on the way. -/
structure Holds (answers : μ → μ → Prop) (fine : ι → σ → Prop) (asks : ι → μ → Prop)
    (n : Net ι σ μ) : Prop where
  /-- Of each client. -/
  clients : ∀ i, fine i (n.clients i)
  /-- A request is one that its sender asks. -/
  requests : ∀ {i request}, (i, request) ∈ n.requests → asks i request
  /-- A reply answers a request that its receiver asks. -/
  replies : ∀ {i reply}, (i, reply) ∈ n.replies → ∃ request, asks i request ∧ answers request reply

/-- Before anything is sent. -/
def start (clients : ι → σ) : Net ι σ μ := ⟨clients, [], []⟩

theorem holds_start {answers : μ → μ → Prop} {fine : ι → σ → Prop} {asks : ι → μ → Prop}
    {clients : ι → σ} (all : ∀ i, fine i (clients i)) :
    Holds answers fine asks (start clients : Net ι σ μ) :=
  ⟨all, fun sent => absurd sent List.not_mem_nil, fun sent => absurd sent List.not_mem_nil⟩

variable [DecidableEq ι]

section Steps

variable (moves : ι → σ → Act μ → σ → Prop) (answers : μ → μ → Prop)

/-- A step of a net. -/
inductive Step : Net ι σ μ → Net ι σ μ → Prop where
  /-- A client does something that others do not see. -/
  | silent {n : Net ι σ μ} {i : ι} {s : σ} (move : moves i (n.clients i) .silent s) :
    Step n { n with clients := Function.update n.clients i s }
  /-- A client sends a datagram. -/
  | sends {n : Net ι σ μ} {i : ι} {s : σ} {request : μ}
    (move : moves i (n.clients i) (.sends request) s) :
    Step n { n with
      clients := Function.update n.clients i s
      requests := (i, request) :: n.requests }
  /-- A client takes a datagram. -/
  | hears {n : Net ι σ μ} {i : ι} {s : σ} {reply : μ}
    (move : moves i (n.clients i) (.hears reply) s) (sent : (i, reply) ∈ n.replies) :
    Step n { n with clients := Function.update n.clients i s }
  /-- The server answers a datagram. -/
  | serves {n : Net ι σ μ} {i : ι} {request reply : μ} (sent : (i, request) ∈ n.requests)
    (answer : answers request reply) : Step n { n with replies := (i, reply) :: n.replies }
  /-- Datagrams are lost, or have been taken. -/
  | fewer {n : Net ι σ μ} {requests replies : List (ι × μ)} (less : requests ⊆ n.requests)
    (less' : replies ⊆ n.replies) : Step n { n with requests := requests, replies := replies }

/-- What holds of clients, as each of its steps keeps it: a request is one it asks, where a reply to
one of these may be relied on. -/
structure Keeps (fine : ι → σ → Prop) (asks : ι → μ → Prop) : Prop where
  /-- A silent step. -/
  silent : ∀ {i s s'}, fine i s → moves i s .silent s' → fine i s'
  /-- A datagram that is sent. -/
  sends : ∀ {i s s' request}, fine i s → moves i s (.sends request) s' → asks i request ∧ fine i s'
  /-- A datagram that is taken. -/
  hears : ∀ {i s s' request reply}, fine i s → asks i request → answers request reply →
    moves i s (.hears reply) s' → fine i s'

end Steps

variable {moves : ι → σ → Act μ → σ → Prop} {answers : μ → μ → Prop} {fine : ι → σ → Prop}
  {asks : ι → μ → Prop}

/-- A client that changes stays fine where its new state is. -/
theorem fine_update {clients : ι → σ} (all : ∀ i, fine i (clients i)) {i : ι} {s : σ}
    (new : fine i s) (j : ι) : fine j (Function.update clients i s j) := by
  by_cases same : j = i
  · subst same
    rwa [Function.update_self]
  · rw [Function.update_of_ne same]
    exact all j

/-- A step keeps what holds. -/
theorem Holds.step (keeps : Keeps moves answers fine asks) {n n' : Net ι σ μ}
    (holds : Holds answers fine asks n) (step : Step moves answers n n') :
    Holds answers fine asks n' := by
  cases step with
  | silent move =>
    exact ⟨fine_update holds.clients (keeps.silent (holds.clients _) move), holds.requests,
      holds.replies⟩
  | sends move =>
    have ⟨asked, after⟩ := keeps.sends (holds.clients _) move
    refine ⟨fine_update holds.clients after, fun sent => ?_, holds.replies⟩
    rcases List.mem_cons.mp sent with same | earlier
    · obtain ⟨rfl, rfl⟩ := Prod.mk.inj same
      exact asked
    · exact holds.requests earlier
  | hears move sent =>
    have ⟨request, asked, answer⟩ := holds.replies sent
    exact ⟨fine_update holds.clients (keeps.hears (holds.clients _) asked answer move),
      holds.requests, holds.replies⟩
  | serves sent answer =>
    refine ⟨holds.clients, holds.requests, fun replied => ?_⟩
    rcases List.mem_cons.mp replied with same | earlier
    · obtain ⟨rfl, rfl⟩ := Prod.mk.inj same
      exact ⟨_, holds.requests sent, answer⟩
    · exact holds.replies earlier
  | fewer less less' =>
    exact ⟨holds.clients, fun sent => holds.requests (less sent), fun sent =>
      holds.replies (less' sent)⟩

/-- The nets that may come of one. -/
abbrev Reaches (moves : ι → σ → Act μ → σ → Prop) (answers : μ → μ → Prop) :
    Net ι σ μ → Net ι σ μ → Prop :=
  Relation.ReflTransGen (Step moves answers)

/-- Every run keeps what holds. -/
theorem Holds.reaches (keeps : Keeps moves answers fine asks) {n n' : Net ι σ μ}
    (holds : Holds answers fine asks n) (run : Reaches moves answers n n') :
    Holds answers fine asks n' := by
  induction run with
  | refl => exact holds
  | tail _ step ih => exact ih.step keeps step

end Net

end Perdition.Lib
