import Perdition.Lib.Relation
import Perdition.Verif.Lines
import Perdition.Verif.Setup

/-!
# The talk with the real server

What an exchange does depends on the bytes that the real server sends and on which writes succeed,
and not on how the bytes are cut into reads. `Talk` is the world seen so: a stream, the results of
writes, and a log of what was said to the server, heard after it and told to the client. Every
exchange that does not read from the client runs in the world as it runs in a talk.
-/
namespace Perdition

open Lib Program

/-! ## What is said and heard -/

/-- A message to the real server and what was heard after it. -/
structure Turn where
  /-- The message. -/
  said : List Byte
  /-- All of it was written. -/
  sent : Bool
  /-- The bytes read after it and before the next message. -/
  heard : List Byte
  /-- A read after it failed or found the end. -/
  silent : Bool
  deriving DecidableEq

/-- Before the first message. -/
def Turn.opening : Turn := ⟨[], true, [], false⟩

/-- What was said, heard and told. -/
structure Log where
  /-- The last message and what was heard after it. -/
  now : Turn
  /-- The messages before it, the last one first. -/
  past : List Turn
  /-- The messages to the client, and whether each was written. -/
  told : List (List Byte × Bool)
  deriving DecidableEq

namespace Log

/-- Nothing was said yet. -/
def start : Log := ⟨.opening, [], []⟩

/-- Bytes are heard. -/
def hear (log : Log) (content : List Byte) : Log :=
  { log with now := { log.now with heard := log.now.heard ++ content } }

/-- A read fails. -/
def starve (log : Log) : Log := { log with now := { log.now with silent := true } }

/-- A message to the server. -/
def say (log : Log) (content : List Byte) (ok : Bool) : Log :=
  { log with now := ⟨content, ok, [], false⟩, past := log.now :: log.past }

/-- A message to the client. -/
def tell (log : Log) (content : List Byte) (ok : Bool) : Log :=
  { log with told := log.told ++ [(content, ok)] }

/-- The messages to the server, the last one first. -/
def turns (log : Log) : List Turn := log.now :: log.past

/-- What an event adds. -/
def add (log : Log) : Event → Log
  | .took reader _ b => if reader.party = .server then log.hear [b] else log
  | .starved reader => if reader.party = .server then log.starve else log
  | .wrote io content ok => match io.party with
    | .server => log.say content ok
    | .client => log.tell content ok
  | _ => log

@[simp] theorem hear_nil (log : Log) : log.hear [] = log := by
  simp [hear]

@[simp] theorem hear_hear (log : Log) (front back : List Byte) :
    (log.hear front).hear back = log.hear (front ++ back) := by
  simp [hear]

end Log

/-! ## Talks -/

/-- An exchange as the real server sees it. -/
structure Talk where
  /-- The bytes the real server sends before a read fails or finds the end. -/
  stream : List Byte
  /-- Those after each such read. -/
  later : List (List Byte)
  /-- Whether writes to the real server succeed. -/
  serverWrites : List Bool
  /-- Whether writes to the client succeed. -/
  clientWrites : List Bool
  /-- The type of each connection. -/
  type : Party → IoType
  /-- Bytes at the end of `__str_write_buf`. -/
  stale : List Byte
  /-- What was said and heard. -/
  log : Log

namespace Talk

/-- The next byte from the real server. -/
def nextByte (t : Talk) : Option Byte × Talk :=
  match t.stream with
  | b :: rest => (some b, { t with stream := rest, log := t.log.hear [b] })
  | [] => (none, { t with
      stream := t.later.headD []
      later := t.later.tail
      log := t.log.starve })

/-- A message to the real server. -/
def say (t : Talk) (content : List Byte) : Bool × Talk :=
  let ok := t.serverWrites.headD true
  (ok, { t with serverWrites := t.serverWrites.tail, log := t.log.say content ok })

/-- A message to the client. -/
def tell (t : Talk) (content : List Byte) : Bool × Talk :=
  let ok := t.clientWrites.headD true
  (ok, { t with clientWrites := t.clientWrites.tail, log := t.log.tell content ok })

/-- Carry out an operation of an exchange that does not read from the client. -/
def step : Handler DuoSig Talk Stop
  | (.server, .nextByte), t => .done t.nextByte.1 t.nextByte.2
  | (.client, .nextByte), t => .halted .noServer t
  | (.server, .write content), t => .done (t.say content).1 (t.say content).2
  | (.client, .write content), t => .done (t.tell content).1 (t.tell content).2
  | (party, .getType), t => .done (t.type party) t
  | (_, .stale count), t => .done (t.stale.take count) t
  | (_, .fault why), t => .halted (.fault why) t

end Talk

/-! ## The world as a talk -/

/-- The bytes that come before the first read that returns none, and those after each such read. -/
def splitReads : List (List Byte) → List Byte × List (List Byte)
  | [] => ([], [])
  | chunk :: reads =>
    let (stream, later) := splitReads reads
    if chunk.isEmpty then ([], stream :: later) else (chunk ++ stream, later)

/-- The world as a talk with the real server on a connection, from this event on. -/
def World.talk (since : Nat) (w : World) (conn : Connection) : Talk where
  stream := w.unread ++ (splitReads conn.reads).1
  later := (splitReads conn.reads).2
  serverWrites := conn.writes
  clientWrites := w.client.writes
  type
    | .client => w.client.type
    | .server => conn.type
  stale := w.stale
  log := (w.trace.drop since).foldl Log.add .start

/-- The world is connected to a real server and seen as this talk from this event on. -/
structure World.Talks (since : Nat) (w : World) (t : Talk) : Prop where
  /-- The connection to the real server. -/
  server : ∃ conn, w.server = some conn ∧ conn.id.party = .server ∧ w.talk since conn = t
  /-- The connection to the client. -/
  client : w.client.id.party = .client
  /-- The event has happened. -/
  past : since ≤ w.trace.length

/-- Where a connection is, the world is some talk. -/
theorem World.talks_self {w : World} {conn : Connection} (connected : w.server = some conn)
    (server : conn.id.party = .server) (client : w.client.id.party = .client) :
    w.Talks w.trace.length (w.talk w.trace.length conn) :=
  ⟨⟨conn, connected, server, rfl⟩, client, le_rfl⟩

/-- A world connected to a real server that sends these chunks. All writes succeed. -/
def World.connected (reads : List (List Byte)) : World :=
  { World.accepted [] [] [] with
    server := some ⟨⟨.server, 0, 0⟩, .fd, reads, [], []⟩
    opened := 1 }

/-- The talk with a real server that sends these chunks. -/
def Talk.reading (reads : List (List Byte)) : Talk where
  stream := (splitReads reads).1
  later := (splitReads reads).2
  serverWrites := []
  clientWrites := []
  type _ := .fd
  stale := []
  log := .start

theorem World.connected_talks (reads : List (List Byte)) :
    (World.connected reads).Talks (World.connected reads).trace.length (Talk.reading reads) := by
  refine ⟨⟨_, rfl, rfl, ?_⟩, rfl, le_rfl⟩
  simp only [World.talk, World.connected, World.accepted, Talk.reading]
  congr 1
  funext party
  cases party <;> rfl

/-- Nothing has been said since now. -/
theorem World.Talks.log_start {w : World} {t : Talk} (talks : w.Talks w.trace.length t) :
    t.log = .start := by
  obtain ⟨conn, _, _, rfl⟩ := talks.server
  simp [World.talk]

/-- The log from this event on, after one more event. -/
theorem log_record {since : Nat} {trace : List Event} (past : since ≤ trace.length)
    (events : List Event) :
    ((trace ++ events).drop since).foldl Log.add .start =
      events.foldl Log.add ((trace.drop since).foldl Log.add .start) := by
  rw [List.drop_append_of_le_length past, List.foldl_append]

/-- Reading takes the first chunk that is not empty, or part of it. -/
theorem Connection.read_split (conn : Connection) :
    ∃ chunk reads, conn.read = (chunk, { conn with reads := reads }) ∧
      if chunk = [] then
        (splitReads conn.reads).1 = [] ∧
          splitReads reads = ((splitReads conn.reads).2.headD [], (splitReads conn.reads).2.tail)
      else splitReads conn.reads = (chunk ++ (splitReads reads).1, (splitReads reads).2) := by
  obtain ⟨id, type, reads, writes, handshakes⟩ := conn
  rcases reads with _ | ⟨chunk, reads⟩
  · exact ⟨[], [], rfl, rfl, rfl⟩
  by_cases small : chunk.length ≤ maxChunk
  · refine ⟨chunk, reads, by simp only [read, if_pos small], ?_⟩
    cases chunk with
    | nil => exact ⟨rfl, rfl⟩
    | cons b chunk => rfl
  · -- a chunk longer than one read returns leaves its end for the next read
    refine ⟨chunk.take maxChunk, chunk.drop maxChunk :: reads, by
      simp only [read, if_neg small], ?_⟩
    have front : chunk.take maxChunk ≠ [] := by
      simp only [ne_eq, List.take_eq_nil_iff, not_or]
      refine ⟨by decide, fun empty => small ?_⟩
      simp [empty]
    have back : chunk.drop maxChunk ≠ [] := by
      simp only [ne_eq, List.drop_eq_nil_iff]
      omega
    have some_ : chunk ≠ [] := fun empty => small (by simp [empty])
    rw [if_neg front]
    simp [splitReads, some_, back, ← List.append_assoc]

/-- Carry out an operation of an exchange on the world. -/
def exchangeStep : Handler DuoSig World Stop := fun op w => w.io op.1 op.2

/-- The world after an operation on a connection. -/
theorem World.io_done {w : World} {party : Party} {op : IoOp} {ch ch' : Channel}
    {r : IoSig.Res op} (channel : w.channel party = some ch) (step : ch.step op = .done r ch') :
    exchangeStep (party, op) w =
      .done r ((w.putChannel party ch').record (ioEvents ch.conn.id ch'.source op r)) := by
  simp only [exchangeStep, World.io, channel]
  rw [step]
  rfl

/-- The next byte in the world is the next byte in the talk. -/
theorem World.Talks.nextByte {since : Nat} {w : World} {t : Talk} (talks : w.Talks since t) :
    ∃ w', exchangeStep (.server, .nextByte) w = .done t.nextByte.1 w' ∧
      w'.Talks since t.nextByte.2 := by
  obtain ⟨⟨conn, connected, server, rfl⟩, client, past⟩ := talks
  let ch : Channel := ⟨conn, w.unread, w.source, w.stale⟩
  have channel : w.channel .server = some ch := by simp [World.channel, connected, ch]
  have taken : ch.nextByte.1 = (w.talk since conn).nextByte.1 ∧
      ch.nextByte.2.conn.id = conn.id ∧
      ((w.putChannel .server ch.nextByte.2).record
        (ioEvents conn.id ch.nextByte.2.source .nextByte ch.nextByte.1)).talk since
          ch.nextByte.2.conn = (w.talk since conn).nextByte.2 := by
    simp only [World.talk, World.record, World.putChannel, log_record past, Channel.nextByte, ch]
    cases unread : w.unread with
    | cons b rest =>
      simp [Talk.nextByte, ioEvents, Log.add, server]
    | nil =>
      obtain ⟨chunk, reads, read, split⟩ := conn.read_split
      rw [read]
      cases chunk with
      | nil =>
        rw [if_pos rfl] at split
        simp [Talk.nextByte, ioEvents, Log.add, server, split.1, split.2]
      | cons b chunk =>
        rw [if_neg (by simp)] at split
        simp [Talk.nextByte, ioEvents, Log.add, server, split]
  obtain ⟨byte, id, talk⟩ := taken
  refine ⟨_, ?_, ⟨⟨ch.nextByte.2.conn, rfl, ?_, talk⟩, client, ?_⟩⟩
  · rw [← byte]
    exact World.io_done channel rfl
  · rw [id, server]
  · simp only [World.record, World.putChannel, List.length_append]
    omega

/-- A message to the real server in the world is one in the talk. -/
theorem World.Talks.say {since : Nat} {w : World} {t : Talk} (talks : w.Talks since t)
    (content : List Byte) :
    ∃ w', exchangeStep (.server, .write content) w = .done (t.say content).1 w' ∧
      w'.Talks since (t.say content).2 := by
  obtain ⟨⟨conn, connected, server, rfl⟩, client, past⟩ := talks
  let ch : Channel := ⟨conn, w.unread, w.source, w.stale⟩
  have channel : w.channel .server = some ch := by simp [World.channel, connected, ch]
  have ok : conn.write.1 = ((w.talk since conn).say content).1 := by
    rcases conn with ⟨id, type, reads, _ | ⟨ok, writes⟩, handshakes⟩ <;> rfl
  have step : ch.step (.write content) = .done conn.write.1 { ch with conn := conn.write.2 } := rfl
  have done := World.io_done channel step
  rw [ok] at done
  refine ⟨_, done, ⟨⟨conn.write.2, rfl, ?_, ?_⟩, client, ?_⟩⟩
  · rcases conn with ⟨id, type, reads, _ | ⟨ok, writes⟩, handshakes⟩ <;> exact server
  · simp only [World.talk, World.record, World.putChannel, log_record past, ioEvents,
      List.foldl_cons, List.foldl_nil, Log.add, ch, server, Talk.say]
    rcases conn with ⟨id, type, reads, _ | ⟨ok, writes⟩, handshakes⟩ <;> rfl
  · simp only [World.record, World.putChannel, List.length_append]
    omega

/-- A message to the client in the world is one in the talk. -/
theorem World.Talks.tell {since : Nat} {w : World} {t : Talk} (talks : w.Talks since t)
    (content : List Byte) :
    ∃ w', exchangeStep (.client, .write content) w = .done (t.tell content).1 w' ∧
      w'.Talks since (t.tell content).2 := by
  obtain ⟨⟨conn, connected, server, rfl⟩, client, past⟩ := talks
  let ch : Channel := ⟨w.client, w.unread, w.source, w.stale⟩
  have channel : w.channel .client = some ch := rfl
  have ok : w.client.write.1 = ((w.talk since conn).tell content).1 := by
    simp only [Talk.tell, World.talk, Connection.write]
    cases w.client.writes <;> rfl
  have same : w.client.write.2.id = w.client.id ∧ w.client.write.2.type = w.client.type ∧
      w.client.write.2.writes = w.client.writes.tail := by
    rcases w.client with ⟨id, type, reads, _ | ⟨ok, writes⟩, handshakes⟩ <;> exact ⟨rfl, rfl, rfl⟩
  have step : ch.step (.write content) = .done w.client.write.1 { ch with conn := w.client.write.2 } :=
    rfl
  have done := World.io_done channel step
  rw [ok] at done
  refine ⟨_, done, ⟨⟨conn, connected, server, ?_⟩, ?_, ?_⟩⟩
  · simp only [World.talk, World.record, World.putChannel, log_record past, ioEvents,
      List.foldl_cons, List.foldl_nil, Log.add, ch, client, Talk.tell, same.2.1, same.2.2]
  · simp only [World.record, World.putChannel, ch, same.1, client]
  · simp only [World.record, World.putChannel, List.length_append]
    omega

/-- An operation that neither takes nor writes bytes leaves the talk as it is. -/
theorem World.Talks.quiet {since : Nat} {w : World} {t : Talk} (talks : w.Talks since t)
    (party : Party) :
    (∃ w', exchangeStep (party, .getType) w = .done (t.type party) w' ∧ w'.Talks since t) ∧
      (∀ count, ∃ w', exchangeStep (party, .stale count) w = .done (t.stale.take count) w' ∧
        w'.Talks since t) ∧
      ∀ why, exchangeStep (party, .fault why) w = .halted (.fault why) w := by
  obtain ⟨⟨conn, connected, server, rfl⟩, client, past⟩ := talks
  cases party with
  | server =>
    have channel : w.channel .server = some ⟨conn, w.unread, w.source, w.stale⟩ := by
      simp [World.channel, connected]
    have kept (w' : World) (same : w' = (w.putChannel .server ⟨conn, w.unread, w.source,
        w.stale⟩).record []) : w'.Talks since (w.talk since conn) := by
      subst same
      exact ⟨⟨conn, rfl, server, by simp [World.talk, World.record, World.putChannel]⟩, client,
        by simpa [World.record, World.putChannel] using past⟩
    refine ⟨⟨_, World.io_done channel rfl, kept _ rfl⟩,
      fun count => ⟨_, World.io_done channel rfl, kept _ rfl⟩, fun why => ?_⟩
    simp only [exchangeStep, World.io, channel, Channel.step]
    rfl
  | client =>
    have channel : w.channel .client = some ⟨w.client, w.unread, w.source, w.stale⟩ := rfl
    have kept (w' : World) (same : w' = (w.putChannel .client ⟨w.client, w.unread, w.source,
        w.stale⟩).record []) : w'.Talks since (w.talk since conn) := by
      subst same
      exact ⟨⟨conn, connected, server, by simp [World.talk, World.record, World.putChannel]⟩, client,
        by simpa [World.record, World.putChannel] using past⟩
    refine ⟨⟨_, World.io_done channel rfl, kept _ rfl⟩,
      fun count => ⟨_, World.io_done channel rfl, kept _ rfl⟩, fun why => ?_⟩
    simp only [exchangeStep, World.io, channel, Channel.step]
    rfl

/-- An exchange that does not read from the client runs in the world as in the talk. -/
theorem run_talk {α : Type} {exchange : Exchange α} {line : List Byte → Prop}
    {result : α → Prop} (sends : exchange.Obeys (sending line) result) (since fuel : Nat)
    {w : World} {t : Talk} (talks : w.Talks since t) :
    Outcome.Related (fun _ w' t' => w'.Talks since t') (fun w' t' => w'.Talks since t')
      (fun _ => False) (Program.run exchangeStep fuel exchange w)
      (Program.run Talk.step fuel exchange t) := by
  have related : Relates exchangeStep Talk.step (fun w t => w.Talks since t) exchange
      (fun a w t => result a ∧ w.Talks since t) (fun w t => w.Talks since t) fun _ => False :=
    relates_of_ops (fun _ _ gone => gone) (sending_any sends) ?_ fun _ _ => id
  · exact (related fuel w t talks).mono (fun _ _ _ both => both.2) fun _ _ => id
  intro op allowed w t talks
  obtain ⟨party, op⟩ := op
  cases op with
  | nextByte =>
    cases party with
    | client => exact allowed.elim
    | server =>
      obtain ⟨w', step, kept⟩ := talks.nextByte
      rw [step]
      exact .done ⟨trivial, kept⟩
  | write content =>
    cases party with
    | client =>
      obtain ⟨w', step, kept⟩ := talks.tell content
      rw [step]
      exact .done ⟨trivial, kept⟩
    | server =>
      obtain ⟨w', step, kept⟩ := talks.say content
      rw [step]
      exact .done ⟨trivial, kept⟩
  | getType =>
    obtain ⟨w', step, kept⟩ := (talks.quiet party).1
    rw [step]
    cases party <;> exact .done ⟨trivial, kept⟩
  | stale count =>
    obtain ⟨w', step, kept⟩ := (talks.quiet party).2.1 count
    rw [step]
    cases party <;> exact .done ⟨trivial, kept⟩
  | fault why =>
    rw [(talks.quiet party).2.2 why]
    cases party <;> exact .halted talks

/-- A dialogue of the session with the client is an exchange. -/
theorem run_sessionClient {α : Type} (dialogue : Dialogue α) (fuel : Nat) (w : World) :
    Program.run World.step fuel (Session.client dialogue) w =
      Program.run exchangeStep fuel (dialogue.with .client) w := by
  have inside : Program.run exchangeStep fuel (dialogue.with .client) w =
      Program.run (fun op w => w.io .client op) fuel dialogue w := run_interpret _ _ _ _ _
  rw [Session.run_client, inside]

/-- An exchange of the session. -/
theorem run_sessionExchange {α : Type} (exchange : Exchange α) (fuel : Nat) (w : World) :
    Program.run World.step fuel (Session.exchange exchange) w =
      Program.run exchangeStep fuel exchange w :=
  Session.run_exchange exchange fuel w

/-- The exchange returns from this world, with a value and a talk since as required. -/
def Exchange.Returns {α : Type} (exchange : Exchange α) (fuel : Nat) (w : World)
    (required : α → Talk → Prop) : Prop :=
  ∃ a w' t, Program.run exchangeStep fuel exchange w = .done a w' ∧
    w'.Talks w.trace.length t ∧ required a t

/-- The world is seen as one talk only. -/
theorem World.Talks.unique {since : Nat} {w : World} {t t' : Talk} (talks : w.Talks since t)
    (talks' : w.Talks since t') : t = t' := by
  obtain ⟨conn, connected, _, rfl⟩ := talks.server
  obtain ⟨conn', connected', _, rfl⟩ := talks'.server
  rw [connected, Option.some.injEq] at connected'
  rw [connected']

/-- Whether an exchange returns as required is seen in the talk. -/
theorem Exchange.returns_iff {α : Type} {exchange : Exchange α} {line : List Byte → Prop}
    {result : α → Prop} (sends : exchange.Obeys (sending line) result) {fuel : Nat} {w : World}
    {t : Talk} (talks : w.Talks w.trace.length t) {required : α → Talk → Prop} :
    exchange.Returns fuel w required ↔
      ∃ a t', Program.run Talk.step fuel exchange t = .done a t' ∧ required a t' := by
  have related := run_talk sends w.trace.length fuel talks
  constructor
  · rintro ⟨a, w', t', run, seen, met⟩
    rw [run] at related
    generalize Program.run Talk.step fuel exchange t = outcome at related
    cases related with
    | escape gone => exact gone.elim
    | done holds => exact ⟨a, t', by rw [holds.unique seen], met⟩
  · rintro ⟨a, t', run, met⟩
    rw [run] at related
    generalize outcome_eq : Program.run exchangeStep fuel exchange w = outcome at related
    cases related with
    | escape gone => exact gone.elim
    | done holds => exact ⟨a, _, t', outcome_eq, holds, met⟩

/-! ## Dialogues in a talk -/

namespace Talk

/-- Operations on the connection to the real server. -/
def serverStep : Handler IoSig Talk Stop := fun op t => step (.server, op) t

/-- Operations on the connection to the client. -/
def clientStep : Handler IoSig Talk Stop := fun op t => step (.client, op) t

theorem run_server {α : Type} (dialogue : Dialogue α) (fuel : Nat) (t : Talk) :
    (dialogue.with .server).run step fuel t = dialogue.run serverStep fuel t :=
  run_interpret _ _ _ _ _

theorem run_client {α : Type} (dialogue : Dialogue α) (fuel : Nat) (t : Talk) :
    (dialogue.with .client).run step fuel t = dialogue.run clientStep fuel t :=
  run_interpret _ _ _ _ _

/-- Something was said. -/
theorem step_past (op : DuoSig.Op) (t : Talk) (said : t.log.past ≠ []) :
    (step op t).state.log.past ≠ [] := by
  have ⟨party, op⟩ := op
  cases op with
  | nextByte =>
    cases party with
    | client => exact said
    | server =>
      cases stream : t.stream <;> simpa [step, nextByte, stream, Outcome.state, Log.hear,
        Log.starve] using said
  | write content =>
    cases party with
    | client => simpa [step, tell, Outcome.state, Log.tell] using said
    | server => simp [step, say, Outcome.state, Log.say]
  | getType => cases party <;> exact said
  | stale count => cases party <;> exact said
  | fault why => cases party <;> exact said

theorem run_past {α : Type} (exchange : Exchange α) {fuel : Nat} {t : Talk} (said : t.log.past ≠ []) :
    (exchange.run step fuel t).Meets (fun _ t' => t'.log.past ≠ []) fun _ => True := by
  have kept := run_invariant exchange step_past fuel t said
  cases run : exchange.run step fuel t with
  | done a t' =>
    rw [run] at kept
    exact kept
  | halted why t' => trivial
  | looping t' => trivial

/-- The talk after the stream was read up to this rest of it. -/
def advance (t : Talk) (rest : List Byte) : Talk :=
  { t with
    stream := rest
    log := t.log.hear (t.stream.take (t.stream.length - rest.length)) }

/-- The talk after the stream was read and a read failed or found the end. -/
def starved (t : Talk) : Talk :=
  { t with
    stream := t.later.headD []
    later := t.later.tail
    log := (t.log.hear t.stream).starve }

/-- Reading up to what follows these bytes. -/
theorem advance_append {t : Talk} {front rest : List Byte} (whole : t.stream = front ++ rest) :
    t.advance rest = { t with stream := rest, log := t.log.hear front } := by
  have taken : t.stream.take (t.stream.length - rest.length) = front := by
    rw [whole, List.length_append, Nat.add_sub_cancel, List.take_left]
  rw [advance, taken]

/-- Nothing was read. -/
theorem advance_self (t : Talk) : t.advance t.stream = t := by
  simp [advance]

/-- A talk delivers its stream. -/
theorem streamed (t : Talk) :
    Streamed serverStep (fun rest t' => rest <:+ t.stream ∧ t' = t.advance rest)
      fun t' => t' = t.starved where
  cons b rest s here := by
    obtain ⟨⟨front, whole⟩, rfl⟩ := here
    have next : t.stream = (front ++ [b]) ++ rest := by rw [← whole]; simp
    refine ⟨t.advance rest, ?_, ⟨front ++ [b], next.symm⟩, rfl⟩
    rw [advance_append whole.symm, advance_append next]
    simp only [serverStep, step, nextByte, Log.hear_hear]
    rfl
  nil s here := by
    obtain ⟨-, rfl⟩ := here
    refine ⟨t.starved, ?_, rfl⟩
    simp only [serverStep, step, nextByte, advance, starved, List.length_nil, Nat.sub_zero,
      List.take_length]
    rfl

/-- The talk after reading made this of the stream. -/
def after {α : Type} (t : Talk) : Option (α × List Byte) → Talk
  | some (_, rest) => t.advance rest
  | none => t.starved

/-- A dialogue that reads from the stream, run in a talk. -/
theorem run_yields {α : Type} {dialogue : Dialogue (Option α)} {fuel : Nat} {t : Talk}
    {scanned : Option (α × List Byte)}
    (yields : Yields (fun rest t' => rest <:+ t.stream ∧ t' = t.advance rest)
      (fun t' => t' = t.starved) scanned (dialogue.run serverStep fuel t)) :
    (dialogue.with .server).run step fuel t =
      .done (scanned.map Prod.fst) (t.after scanned) := by
  obtain ⟨last, run, reached⟩ := yields
  rw [run_server, run]
  cases scanned with
  | none => rw [show last = t.starved from reached]; rfl
  | some read => rw [reached.2]; rfl

/-- The start of a talk is at its stream. -/
theorem at_stream (t : Talk) : t.stream <:+ t.stream ∧ t = t.advance t.stream :=
  ⟨List.suffix_rfl, t.advance_self.symm⟩

theorem run_tokenRead (capture : Option Nat) (flag : Flag) (m : Nat) {fuel : Nat} {t : Talk}
    (enough : t.stream.length < fuel) :
    ((tokenRead capture flag m).with .server).run step fuel t =
      .done ((scanToken capture flag m .start t.stream).map Prod.fst)
        (t.after (scanToken capture flag m .start t.stream)) :=
  run_yields (tokenRead_streamed t.streamed capture flag m t.at_stream enough)

theorem run_readLine {flag : Flag} (lines : LineFlag flag) (m : Nat) {fuel : Nat} {t : Talk}
    (enough : t.stream.length < fuel) :
    ((readLine none flag m).with .server).run step fuel t =
      .done ((scanLine flag m t.stream).map fun read => (read.1, []))
        (t.after (scanLine flag m t.stream)) := by
  rw [run_yields (readLine_streamed t.streamed lines.normal m t.at_stream enough)]
  cases scanLine flag m t.stream <;> rfl

end Talk

/-! ## Lines with a buffer -/

/-- The buffer after these bytes of a line were placed in it. -/
def Capture.store (c : Capture) (captured : List Byte) : Capture :=
  ⟨captured ++ List.replicate (c.n - captured.length) 0 ++ c.buf.drop c.n, captured.length⟩

/-- What `read_line` makes of a stream, with a buffer or without. -/
def scanInto (flag : Flag) (m : Nat) (capture : Option Capture) (stream : List Byte) :
    Option ((Queue × Option Capture) × List Byte) :=
  match capture with
  | none => (scanLine flag m stream).map fun read => ((read.1, none), read.2)
  | some c =>
    if c.n = 0 then (scanLine flag m stream).map fun read => ((read.1, some c), read.2)
    else (scanCapture flag m c.n stream).map
      fun read => ((read.1.1, some (c.store read.1.2)), read.2)

theorem Talk.run_readLineInto {flag : Flag} (lines : LineFlag flag) (m : Nat)
    (capture : Option Capture) {fuel : Nat} {t : Talk} (enough : t.stream.length < fuel) :
    ((readLineInto capture flag m).with .server).run Talk.step fuel t =
      .done ((scanInto flag m capture t.stream).map Prod.fst)
        (t.after (scanInto flag m capture t.stream)) := by
  have line := readLine_streamed t.streamed lines.normal m t.at_stream enough
  refine run_yields ?_
  cases capture with
  | none =>
    obtain ⟨last, run, reached⟩ := line
    refine ⟨last, ?_, ?_⟩
    · rw [readLineInto, run_bind, run, scanInto]
      cases scanLine flag m t.stream <;> rfl
    · cases scanned : scanLine flag m t.stream <;> simpa [scanInto, scanned] using reached
  | some c =>
    by_cases zero : c.n = 0
    · obtain ⟨last, run, reached⟩ := line
      refine ⟨last, ?_, ?_⟩
      · rw [readLineInto, if_pos zero, run_bind, run, scanInto, if_pos zero]
        cases scanLine flag m t.stream <;> simp [zero]
      · cases scanned : scanLine flag m t.stream <;> simpa [scanInto, scanned, zero] using reached
    · obtain ⟨last, run, reached⟩ := readLine_captured t.streamed lines m t.at_stream enough
        (Nat.pos_of_ne_zero zero)
      refine ⟨last, ?_, ?_⟩
      · rw [readLineInto, if_neg zero, run_bind, run, scanInto, if_neg zero]
        cases scanCapture flag m c.n t.stream <;> simp [zero, Capture.store]
      · cases scanned : scanCapture flag m c.n t.stream <;>
          simpa [scanInto, scanned, zero] using reached

end Perdition
