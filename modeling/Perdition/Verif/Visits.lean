import Perdition.Verif.Talk

/-!
# The talk with the client

A dialogue with the client depends on the bytes that the client sends and on which writes succeed, as
one with the real server does. The world seen from the client is therefore a talk too, in which the
client is the one that is listened to.
-/
namespace Perdition

open Lib Program

/-- What an event adds to what was said to the client and heard from it. -/
def Log.visit (log : Log) : Event → Log
  | .took reader _ b => if reader.party = .client then log.hear [b] else log
  | .starved reader => if reader.party = .client then log.starve else log
  | .wrote io content ok => if io.party = .client then log.say content ok else log
  | _ => log

/-- The world as a talk with the client, from this event on. -/
def World.visit (since : Nat) (w : World) : Talk where
  stream := w.unread ++ (splitReads w.client.reads).1
  later := (splitReads w.client.reads).2
  serverWrites := w.client.writes
  clientWrites := []
  type _ := w.client.type
  stale := w.stale
  log := (w.trace.drop since).foldl Log.visit .start

/-- The world is seen from the client as this talk from this event on. -/
structure World.Visits (since : Nat) (w : World) (t : Talk) : Prop where
  /-- The talk. -/
  same : w.visit since = t
  /-- The connection to the client. -/
  client : w.client.id.party = .client
  /-- The event has happened. -/
  past : since ≤ w.trace.length

/-- The world is a talk with the client from now on. -/
theorem World.visits_self {w : World} (client : w.client.id.party = .client) :
    w.Visits w.trace.length (w.visit w.trace.length) :=
  ⟨rfl, client, le_rfl⟩

/-- The log of a visit from this event on, after more events. -/
theorem visit_record {since : Nat} {trace : List Event} (past : since ≤ trace.length)
    (events : List Event) :
    ((trace ++ events).drop since).foldl Log.visit .start =
      events.foldl Log.visit ((trace.drop since).foldl Log.visit .start) := by
  rw [List.drop_append_of_le_length past, List.foldl_append]

/-- Operations on the connection of the client. -/
def visitStep : Handler IoSig World Stop := fun op w => w.io .client op

namespace World.Visits

variable {since : Nat} {w : World} {t : Talk}

/-- The next byte in the world is the next byte in the talk. -/
theorem nextByte (visits : w.Visits since t) :
    ∃ w', visitStep .nextByte w = .done t.nextByte.1 w' ∧ w'.Visits since t.nextByte.2 := by
  obtain ⟨same, client, past⟩ := visits
  subst same
  let ch : Channel := ⟨w.client, w.unread, w.source, w.stale⟩
  have taken : ch.nextByte.1 = (w.visit since).nextByte.1 ∧
      ch.nextByte.2.conn.id = w.client.id ∧
      ((w.putChannel .client ch.nextByte.2).record
        (ioEvents w.client.id ch.nextByte.2.source .nextByte ch.nextByte.1)).visit since =
          (w.visit since).nextByte.2 := by
    simp only [World.visit, World.record, World.putChannel, visit_record past, Channel.nextByte, ch]
    cases unread : w.unread with
    | cons b rest => simp [Talk.nextByte, ioEvents, Log.visit, client]
    | nil =>
      obtain ⟨chunk, reads, read, split⟩ := w.client.read_split
      rw [read]
      cases chunk with
      | nil =>
        rw [if_pos rfl] at split
        simp [Talk.nextByte, ioEvents, Log.visit, client, split.1, split.2]
      | cons b chunk =>
        rw [if_neg (by simp)] at split
        simp [Talk.nextByte, ioEvents, Log.visit, client, split]
  obtain ⟨byte, id, talk⟩ := taken
  refine ⟨(w.putChannel .client ch.nextByte.2).record
    (ioEvents w.client.id ch.nextByte.2.source .nextByte ch.nextByte.1), ?_, talk, ?_, ?_⟩
  · rw [← byte]
    rfl
  · exact (congrArg IoId.party id).trans client
  · simp only [World.record, World.putChannel, List.length_append]
    omega

/-- A message to the client in the world is one in the talk. -/
theorem say (visits : w.Visits since t) (content : List Byte) :
    ∃ w', visitStep (.write content) w = .done (t.say content).1 w' ∧
      w'.Visits since (t.say content).2 := by
  obtain ⟨same, client, past⟩ := visits
  subst same
  have ok : w.client.write.1 = ((w.visit since).say content).1 := by
    simp only [Talk.say, World.visit, Connection.write]
    cases w.client.writes <;> rfl
  have kept : w.client.write.2.id = w.client.id ∧ w.client.write.2.type = w.client.type ∧
      w.client.write.2.reads = w.client.reads ∧
      w.client.write.2.writes = w.client.writes.tail := by
    rcases w.client with ⟨id, type, reads, _ | ⟨ok, writes⟩, handshakes⟩ <;>
      exact ⟨rfl, rfl, rfl, rfl⟩
  refine ⟨(w.putChannel .client ⟨w.client.write.2, w.unread, w.source, w.stale⟩).record
    (ioEvents w.client.id w.source (.write content) w.client.write.1), ?_, ?_, ?_, ?_⟩
  · rw [← ok]
    rfl
  · obtain ⟨_, type, reads, writes⟩ := kept
    simp only [World.visit, World.record, World.putChannel, visit_record past, ioEvents,
      List.foldl_cons, List.foldl_nil, Log.visit, client, if_true, type, reads, writes, ok]
    rfl
  · exact (congrArg IoId.party kept.1).trans client
  · simp only [World.record, World.putChannel, List.length_append]
    omega

/-- An operation that neither takes nor writes bytes leaves the talk as it is. -/
theorem quiet (visits : w.Visits since t) :
    ((w.putChannel .client ⟨w.client, w.unread, w.source, w.stale⟩).record []).Visits since t := by
  have ⟨same, client, past⟩ := visits
  subst same
  refine ⟨?_, client, ?_⟩
  · simp [World.visit, World.record, World.putChannel]
  · simpa [World.record, World.putChannel] using past

/-- A dialogue with the client runs in the world as in the talk. -/
theorem run {α : Type} (dialogue : Dialogue α) (fuel : Nat) (visits : w.Visits since t) :
    Outcome.Related (fun _ w' t' => w'.Visits since t') (fun w' t' => w'.Visits since t')
      (fun _ => False) (dialogue.run visitStep fuel w) (dialogue.run Talk.serverStep fuel t) := by
  have related : Relates visitStep Talk.serverStep (fun w t => w.Visits since t) dialogue
      (fun _ w t => True ∧ w.Visits since t) (fun w t => w.Visits since t) fun _ => False := by
    refine relates_of_ops (fun _ _ gone => gone) (obeys_any dialogue) ?_ fun _ _ => id
    intro op _ w t visits
    cases op with
    | nextByte =>
      obtain ⟨w', step, kept⟩ := visits.nextByte
      rw [step]
      exact .done ⟨trivial, kept⟩
    | write content =>
      obtain ⟨w', step, kept⟩ := visits.say content
      rw [step]
      exact .done ⟨trivial, kept⟩
    | getType =>
      have kept := visits.quiet
      obtain ⟨same, _, _⟩ := visits
      subst same
      exact .done ⟨trivial, kept⟩
    | stale count =>
      have kept := visits.quiet
      obtain ⟨same, _, _⟩ := visits
      subst same
      exact .done ⟨trivial, kept⟩
    | fault why => exact .halted visits
  exact (related fuel w t visits).mono (fun _ _ _ both => both.2) fun _ _ => id

end World.Visits

/-- A dialogue with the client returns from this world, with a value and a talk since as required. -/
def Dialogue.Returns {α : Type} (dialogue : Dialogue α) (fuel : Nat) (w : World)
    (required : α → Talk → Prop) : Prop :=
  ∃ a w' t, Program.run World.step fuel (Session.client dialogue) w = .done a w' ∧
    w'.Visits w.trace.length t ∧ required a t

/-- Whether a dialogue returns as required is seen in the talk with the client. -/
theorem Dialogue.returns_iff {α : Type} {dialogue : Dialogue α} {fuel : Nat} {w : World}
    (client : w.client.id.party = .client) {required : α → Talk → Prop} :
    dialogue.Returns fuel w required ↔
      ∃ a t', dialogue.run Talk.serverStep fuel (w.visit w.trace.length) = .done a t' ∧
        required a t' := by
  have related := (World.visits_self client).run dialogue fuel
  have inside : Program.run World.step fuel (Session.client dialogue) w =
      dialogue.run visitStep fuel w := Session.run_client dialogue fuel w
  unfold Dialogue.Returns
  rw [inside]
  constructor
  · intro ⟨a, w', t, run, seen, met⟩
    rw [run] at related
    generalize dialogue.run Talk.serverStep fuel (w.visit w.trace.length) = outcome at related
    cases related with
    | escape gone => exact gone.elim
    | done holds => exact ⟨a, _, rfl, by rwa [← holds.same, seen.same]⟩
  · intro ⟨a, t', run, met⟩
    rw [run] at related
    generalize outcome_eq : dialogue.run visitStep fuel w = outcome at related
    cases related with
    | escape gone => exact gone.elim
    | done holds => exact ⟨a, _, t', rfl, holds, met⟩

end Perdition
