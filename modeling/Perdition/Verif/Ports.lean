import Perdition.Lib.Listener
import Perdition.Verif.Talk

/-!
# Exchanges as processes

What an exchange says on one connection depends on how much of the other side's bytes has arrived. A
port is the world seen from one connection, with writes that succeed: the bytes that have arrived,
and the history of the connection up to the first read that found none of them left. Every exchange
at a port is a process, and as long as no read waits it runs as in a talk.
-/
namespace Perdition

open Lib Program

/-! ## Ports -/

/-- An exchange as the other side of its connection sees it. -/
structure Port where
  /-- The bytes that have arrived and were not read. -/
  unheard : List Byte
  /-- The bytes read and written, in order. -/
  history : List (Byte ⊕ Byte)
  /-- A read found no bytes left. What follows is no part of the history. -/
  waiting : Bool
  /-- The type of each connection. -/
  type : Party → IoType
  /-- Bytes at the end of `__str_write_buf`. -/
  stale : List Byte

namespace Port

/-- Bytes are read or written. -/
def note (p : Port) (bytes_ : List (Byte ⊕ Byte)) : Port :=
  if p.waiting then p else { p with history := p.history ++ bytes_ }

/-- More bytes have arrived. -/
def feed (more : List Byte) (p : Port) : Port := { p with unheard := p.unheard ++ more }

/-- Carry out an operation of an exchange that does not read from the client. -/
def step : Handler DuoSig Port Stop
  | (.server, .nextByte), p => match p.unheard with
    | b :: rest => .done (some b) { p.note [.inl b] with unheard := rest }
    | [] => .done none { p with waiting := true }
  | (.client, .nextByte), p => .halted .noServer p
  | (.server, .write content), p => .done true (p.note (content.map .inr))
  | (.client, .write _), p => .done true p
  | (party, .getType), p => .done (p.type party) p
  | (_, .stale count), p => .done (p.stale.take count) p
  | (_, .fault why), p => .halted (.fault why) p

/-- A port where nothing has happened. -/
def fresh (type : Party → IoType) (stale : List Byte) : Port := ⟨[], [], false, type, stale⟩

@[simp] theorem note_live {p : Port} (live : ¬ p.waiting = true) (bytes_ : List (Byte ⊕ Byte)) :
    p.note bytes_ = { p with history := p.history ++ bytes_ } := if_neg live

@[simp] theorem note_waiting {p : Port} (waits : p.waiting = true) (bytes_ : List (Byte ⊕ Byte)) :
    p.note bytes_ = p := if_pos waits

/-- What was noted comes last. -/
theorem history_note (p : Port) (bytes_ : List (Byte ⊕ Byte)) :
    p.history <+: (p.note bytes_).history := by
  by_cases waits : p.waiting = true
  · rw [note_waiting waits]
  · rw [note_live waits]
    exact List.prefix_append ..

theorem waiting_note (p : Port) (bytes_ : List (Byte ⊕ Byte)) :
    (p.note bytes_).waiting = p.waiting := by
  by_cases waits : p.waiting = true
  · rw [note_waiting waits]
  · rw [note_live waits]

/-- An operation adds to the history. -/
theorem step_grows (op : DuoSig.Op) (p : Port) : p.history <+: (step op p).state.history := by
  obtain ⟨party, op⟩ := op
  cases op with
  | nextByte =>
    cases party with
    | client => exact List.prefix_rfl
    | server =>
      cases unheard : p.unheard with
      | nil => simp [step, unheard, Outcome.state]
      | cons b rest => simpa [step, unheard, Outcome.state] using p.history_note [.inl b]
  | write content =>
    cases party with
    | client => exact List.prefix_rfl
    | server => exact p.history_note (content.map .inr)
  | getType => cases party <;> exact List.prefix_rfl
  | stale count => cases party <;> exact List.prefix_rfl
  | fault why => cases party <;> exact List.prefix_rfl

/-- After a wait nothing does. -/
theorem step_still (op : DuoSig.Op) (p : Port) (waits : p.waiting = true) :
    (step op p).state.waiting = true ∧ (step op p).state.history = p.history := by
  obtain ⟨party, op⟩ := op
  cases op with
  | nextByte =>
    cases party with
    | client => exact ⟨waits, rfl⟩
    | server => cases unheard : p.unheard <;> simp [step, unheard, Outcome.state, waits]
  | write content =>
    cases party with
    | client => exact ⟨waits, rfl⟩
    | server => simp [step, Outcome.state, waits]
  | getType => cases party <;> exact ⟨waits, rfl⟩
  | stale count => cases party <;> exact ⟨waits, rfl⟩
  | fault why => cases party <;> exact ⟨waits, rfl⟩

/-- What is read has arrived. -/
theorem step_hears (op : DuoSig.Op) (p : Port) (live : ¬ p.waiting = true)
    (after : ¬ (step op p).state.waiting = true) :
    heardIn (step op p).state.history ++ (step op p).state.unheard =
      heardIn p.history ++ p.unheard := by
  obtain ⟨party, op⟩ := op
  cases op with
  | nextByte =>
    cases party with
    | client => rfl
    | server =>
      cases unheard : p.unheard with
      | nil => simp [step, unheard, Outcome.state] at after
      | cons b rest =>
        have one : heardIn [(Sum.inl b : Byte ⊕ Byte)] = [b] := rfl
        simp [step, unheard, Outcome.state, live, one]
  | write content =>
    cases party with
    | client => rfl
    | server => simp [step, Outcome.state, live]
  | getType => cases party <;> rfl
  | stale count => cases party <;> rfl
  | fault why => cases party <;> rfl

/-- An operation does the same where more bytes have arrived, or it waits for the first of them. -/
theorem step_fed (op : DuoSig.Op) (p : Port) (more : List Byte) (live : ¬ p.waiting = true) :
    (¬ (step op p).state.waiting = true ∧
      step op (p.feed more) = (step op p).mapState (feed more)) ∨
    ((step op p).state.waiting = true ∧ (step op p).state.history = p.history ∧ p.unheard = [] ∧
      ∀ first tail, more = first :: tail →
        p.history ++ [Sum.inl first] <+: (step op (p.feed more)).state.history) := by
  obtain ⟨party, op⟩ := op
  cases op with
  | nextByte =>
    cases party with
    | client => exact .inl ⟨live, rfl⟩
    | server =>
      cases unheard : p.unheard with
      | nil =>
        refine .inr ⟨by simp [step, unheard, Outcome.state],
          by simp [step, unheard, Outcome.state], rfl, ?_⟩
        rintro first tail rfl
        simp [step, feed, unheard, Outcome.state, live]
      | cons b rest =>
        refine .inl ⟨by simp [step, unheard, Outcome.state, live], ?_⟩
        simp [step, feed, unheard, Outcome.mapState, live]
  | write content =>
    cases party with
    | client => exact .inl ⟨live, rfl⟩
    | server =>
      refine .inl ⟨by simp [step, Outcome.state, live], ?_⟩
      simp [step, feed, Outcome.mapState, live]
  | getType => cases party <;> exact .inl ⟨live, rfl⟩
  | stale count => cases party <;> exact .inl ⟨live, rfl⟩
  | fault why => cases party <;> exact .inl ⟨live, rfl⟩

/-- Ports listen. -/
def listener : Listener DuoSig Port Stop Byte where
  handler := step
  feed := feed
  history := history
  unheard := unheard
  Waiting p := p.waiting = true
  feed_nil _ := by simp [feed]
  feed_append _ _ _ := by simp [feed]
  waiting_feed _ _ := Iff.rfl
  history_feed _ _ := rfl
  unheard_feed _ _ := rfl
  grows := step_grows
  still := step_still
  hears := step_hears
  fed op p more live := step_fed op p more live

theorem fresh_fresh (type : Party → IoType) (stale : List Byte) :
    listener.Fresh (fresh type stale) := ⟨rfl, rfl, Bool.false_ne_true⟩

end Port

/-- An exchange as a process, with so many iterations of each loop. -/
def Exchange.process {α : Type} (exchange : Exchange α) (fuel : Nat) (type : Party → IoType)
    (stale : List Byte) : Lib.Process Byte :=
  Port.listener.process exchange fuel (Port.fresh type stale) (Port.fresh_fresh type stale)

/-! ## Ports and talks -/

/-- A message and what was heard after it. -/
def Turn.units (turn : Turn) : List (Byte ⊕ Byte) :=
  turn.said.map .inr ++ turn.heard.map .inl

/-- What was said and heard in these turns, the last one first, up to the first that was silent. -/
def turnsBytes : List Turn → List (Byte ⊕ Byte)
  | [] => []
  | turn :: past => turnsBytes past ++ if past.any Turn.silent then [] else turn.units

/-- A port that is this talk. -/
structure Port.Sees (p : Port) (t : Talk) : Prop where
  /-- The bytes that are left. -/
  unheard : p.unheard = t.stream
  /-- None come later. -/
  later : t.later = []
  /-- Writes to the other side succeed. -/
  serverWrites : t.serverWrites = []
  /-- So do those to the client. -/
  clientWrites : t.clientWrites = []
  /-- The types. -/
  type : p.type = t.type
  /-- The write buffer. -/
  stale : p.stale = t.stale
  /-- A read waits where a turn is silent. -/
  waiting : p.waiting = t.log.turns.any Turn.silent
  /-- No bytes are left then. -/
  drained : p.waiting = true → p.unheard = []
  /-- The history is what was said and heard. -/
  history : p.history = turnsBytes t.log.turns

section Sees

variable {p : Port} {t : Talk}

/-- A talk with a stream. -/
def Talk.arrived (stream : List Byte) (type : Party → IoType) (stale : List Byte) : Talk where
  stream := stream
  later := []
  serverWrites := []
  clientWrites := []
  type := type
  stale := stale
  log := .start

/-- A port where bytes have arrived is the talk with them. -/
theorem Port.sees_arrived (stream : List Byte) (type : Party → IoType) (stale : List Byte) :
    ((Port.fresh type stale).feed stream).Sees (Talk.arrived stream type stale) :=
  ⟨rfl, rfl, rfl, rfl, rfl, rfl, rfl, fun waits => absurd waits Bool.false_ne_true, rfl⟩

/-- One more byte was heard. -/
theorem turnsBytes_hear (log : Log) (content : List Byte) :
    turnsBytes (log.hear content).turns =
      turnsBytes log.turns ++ if log.past.any Turn.silent then [] else content.map .inl := by
  simp only [Log.turns, Log.hear, turnsBytes, Turn.units, List.map_append]
  split <;> simp

/-- A message was said. -/
theorem turnsBytes_say (log : Log) (content : List Byte) (ok : Bool) :
    turnsBytes (log.say content ok).turns =
      turnsBytes log.turns ++ if log.turns.any Turn.silent then [] else content.map .inr := by
  simp [Log.turns, Log.say, turnsBytes, Turn.units]

/-- The port goes along with the talk. -/
theorem Port.Sees.step (sees : p.Sees t) (op : DuoSig.Op) :
    Outcome.Related (fun _ t' p' => Port.Sees p' t') (fun t' p' => Port.Sees p' t')
      (fun _ => False) (Talk.step op t) (Port.step op p) := by
  obtain ⟨party, op⟩ := op
  cases op with
  | nextByte =>
    cases party with
    | client => exact .halted sees
    | server =>
      cases unheard : p.unheard with
      | nil =>
        have stream := sees.unheard.symm.trans unheard
        simp only [Talk.step, Talk.nextByte, stream, sees.later, Port.step, unheard]
        refine .done ⟨rfl, rfl, sees.serverWrites, sees.clientWrites, sees.type, sees.stale,
          by simp [Log.turns, Log.starve], fun _ => rfl, sees.history.trans ?_⟩
        simp [Log.turns, Log.starve, turnsBytes, Turn.units]
      | cons b rest =>
        have stream := sees.unheard.symm.trans unheard
        have live : ¬ p.waiting = true := fun waits => by
          have none_ := sees.drained waits
          rw [unheard] at none_
          cases none_
        have quiet := sees.waiting
        rw [Bool.not_eq_true _ |>.mp live, Log.turns, List.any_cons, eq_comm,
          Bool.or_eq_false_iff] at quiet
        simp only [Talk.step, Talk.nextByte, stream, Port.step, unheard]
        refine .done ⟨rfl, sees.later, sees.serverWrites, sees.clientWrites, ?_, ?_, ?_, ?_, ?_⟩
        · simpa [live] using sees.type
        · simpa [live] using sees.stale
        · simpa [live, Log.turns, Log.hear] using quiet
        · simp [live]
        · rw [turnsBytes_hear, quiet.2]
          simp [live, sees.history]
  | write content =>
    cases party with
    | client =>
      simp only [Talk.step, Talk.tell, Port.step, sees.clientWrites, List.headD_nil, List.tail_nil]
      exact .done ⟨sees.unheard, sees.later, sees.serverWrites, rfl, sees.type, sees.stale,
        sees.waiting, sees.drained, sees.history⟩
    | server =>
      simp only [Talk.step, Talk.say, Port.step, sees.serverWrites, List.headD_nil, List.tail_nil]
      refine .done ⟨?_, sees.later, rfl, sees.clientWrites, ?_, ?_, ?_, ?_, ?_⟩
      · by_cases waits : p.waiting = true <;> simp [waits, sees.unheard]
      · by_cases waits : p.waiting = true <;> simp [waits, sees.type]
      · by_cases waits : p.waiting = true <;> simp [waits, sees.stale]
      · rw [Port.waiting_note, sees.waiting]
        simp [Log.turns, Log.say]
      · intro waits
        rw [Port.waiting_note] at waits
        simpa [waits] using sees.drained waits
      · rw [turnsBytes_say, ← sees.waiting, ← sees.history]
        by_cases waits : p.waiting = true <;> simp [waits]
  | getType =>
    have same : p.type = t.type := sees.type
    cases party <;> simp only [Talk.step, Port.step, same] <;> exact .done sees
  | stale count =>
    have same : p.stale = t.stale := sees.stale
    cases party <;> simp only [Talk.step, Port.step, same] <;> exact .done sees
  | fault why => cases party <;> exact .halted sees

/-- An exchange runs at a port as in the talk. -/
theorem run_port {α : Type} (exchange : Exchange α) (fuel : Nat) (sees : p.Sees t) :
    Outcome.Related (fun _ t' p' => Port.Sees p' t') (fun t' p' => Port.Sees p' t')
      (fun _ => False) (exchange.run Talk.step fuel t) (exchange.run Port.step fuel p) := by
  have related : Relates Talk.step Port.step (fun t p => Port.Sees p t) exchange
      (fun _ t p => True ∧ Port.Sees p t) (fun t p => Port.Sees p t) fun _ => False :=
    relates_of_ops (fun _ _ gone => gone) (obeys_any exchange)
      (fun op _ t p sees => (sees.step op).mono (fun _ _ _ seen => ⟨trivial, seen⟩) fun _ _ => id)
      fun _ _ => id
  exact (related fuel t p sees).mono (fun _ _ _ both => both.2) fun _ _ => id

/-- An exchange that returns in the talk with a stream returns at the port where it has arrived, and
the process says and hears what the talk does. -/
theorem Exchange.process_talk {α : Type} {exchange : Exchange α} {fuel : Nat}
    {type : Party → IoType} {stale stream : List Byte} {value : α} {t' : Talk}
    (run : exchange.run Talk.step fuel (Talk.arrived stream type stale) = .done value t') :
    (exchange.process fuel type stale).history stream = turnsBytes t'.log.turns ∧
      ∃ p', exchange.run Port.step fuel ((Port.fresh type stale).feed stream) = .done value p' := by
  have related := run_port exchange fuel (Port.sees_arrived stream type stale)
  rw [run] at related
  generalize ported : exchange.run Port.step fuel ((Port.fresh type stale).feed stream) = outcome
    at related
  have history : (exchange.process fuel type stale).history stream = outcome.state.history := by
    rw [← ported]
    rfl
  cases related with
  | escape gone => exact gone.elim
  | done seen => exact ⟨history.trans seen.history, _, rfl⟩

end Sees

end Perdition
