import Perdition.Spec.Safety
import Perdition.Verif.Refinement

/-!
# Isolation of the connections

Every byte a token is made of was read from the connection the token is read from, as long as no
attempt begins with bytes in the read buffer that an earlier one left there. An attempt that fails
while the real server is answering leaves such bytes.
-/
namespace Perdition

open Lib Program

/-! ## Tokens -/

/-- The byte an event takes for a connection. -/
def Event.taken (reader : IoId) : Event → Option Byte
  | .took r _ b => if r = reader then some b else none
  | _ => none

/-- The connection of a party. -/
def World.connId (w : World) (party : Party) : Option IoId :=
  (w.channel party).map (·.conn.id)

theorem World.connId_put {w : World} {party : Party} {ch ch' : Channel} {events : List Event}
    (found : w.channel party = some ch) (same : ch'.conn.id = ch.conn.id) :
    ((w.putChannel party ch').record events).connId party = w.connId party := by
  have before : w.connId party = some ch.conn.id := by simp [World.connId, found]
  rw [before, ← same]
  cases party <;> rfl

theorem World.trace_put (w : World) (party : Party) (ch : Channel) (events : List Event) :
    ((w.putChannel party ch).record events).trace = w.trace ++ events := by
  cases party <;> rfl

/-- Taking a byte records one event, of the connection it is taken for. -/
theorem io_nextByte_taken {party : Party} {reader : IoId} {w : World}
    (conn : w.connId party = some reader) :
    (w.io party .nextByte).Meets (fun r w' => w'.connId party = some reader ∧
      ∃ event, w'.trace = w.trace ++ [event] ∧ event.taken reader = r) fun _ => True := by
  unfold World.connId at conn
  unfold World.io
  cases found : w.channel party with
  | none => trivial
  | some ch =>
    have id : ch.conn.id = reader := by simpa [found] using conn
    have kept := ch.nextByte_spec.1
    simp only [Channel.step, Outcome.Meets]
    refine ⟨(World.connId_put found kept).trans (by simp [World.connId, found, id]), ?_⟩
    cases ch.nextByte.1 with
    | none => exact ⟨.starved ch.conn.id, w.trace_put _ _ _, rfl⟩
    | some b =>
      exact ⟨.took ch.conn.id ch.nextByte.2.source b, w.trace_put _ _ _, if_pos id⟩

/-- A token is made of bytes that were taken for its connection while it was read. -/
theorem tokenRead_taken {party : Party} {reader : IoId} {w : World}
    (conn : w.connId party = some reader) (capture : Option Nat) (flag : Flag) (m fuel : Nat) :
    (Program.run (fun op w => w.io party op) fuel (tokenRead capture flag m) w).Meets
      (fun r w' => ∀ t literal, r = some (t, literal) → ∃ events,
        w'.trace = w.trace ++ events ∧ t.buf.Sublist (events.filterMap (Event.taken reader)))
      fun _ => True := by
  let made (state : ReadState) (w' : World) : Prop := w'.connId party = some reader ∧
    ∃ events, w'.trace = w.trace ++ events ∧
      state.buffer.Sublist (events.filterMap (Event.taken reader))
  have loop : Triple (fun op w' => w'.io party op) (made .start) (tokenRead capture flag m)
      (fun r w' => ∀ t literal, r = some (t, literal) → ∃ events,
        w'.trace = w.trace ++ events ∧ t.buf.Sublist (events.filterMap (Event.taken reader)))
      fun _ => True := by
    refine triple_loop made (fun state => ?_) fun _ _ _ => trivial
    refine triple_ite (fun _ => ?_) fun _ => ?_
    · refine triple_pure fun w' ⟨_, events, trace, part⟩ t literal same => ?_
      obtain ⟨rfl, rfl⟩ := Prod.mk.inj (Option.some.inj same)
      exact ⟨events, trace, part⟩
    have taken : Triple (fun op w' => w'.io party op) (made state) nextByte
        (fun r w' => w'.connId party = some reader ∧ ∃ events, w'.trace = w.trace ++ events ∧
          (state.buffer ++ r.toList).Sublist (events.filterMap (Event.taken reader)))
        fun _ => True := by
      refine triple_perform fun w' ⟨conn', events, trace, part⟩ => ?_
      refine (io_nextByte_taken conn').mono (fun r w'' taken => ?_) fun _ => id
      obtain ⟨conn'', event, last, byte⟩ := taken
      refine ⟨conn'', events ++ [event], by rw [last, trace, List.append_assoc], ?_⟩
      rw [List.filterMap_append]
      refine part.append ?_
      cases r <;> simp [byte]
    refine triple_bind taken fun r => ?_
    cases r with
    | none => exact triple_pure fun w' _ t literal same => by cases same
    | some c =>
      have step := tokenStep_buffer capture.isSome flag m state c
      dsimp only
      split
      · rename_i state' more
        rw [more] at step
        exact triple_pure fun w' ⟨conn', events, trace, part⟩ =>
          ⟨conn', events, trace, step.trans part⟩
      · rename_i state' flag' stop
        rw [stop] at step
        refine triple_pure fun w' ⟨_, events, trace, part⟩ t literal same => ?_
        obtain ⟨rfl, rfl⟩ := Prod.mk.inj (Option.some.inj same)
        exact ⟨events, trace, step.trans part⟩
  exact loop fuel w ⟨conn, [], by simp, List.Sublist.refl _⟩

/-! ## Runs -/

/-- In every run whose attempts all begin with an empty read buffer, each byte is taken by the
connection it was read from; and whenever a token is read, it is made of bytes taken for its
connection. -/
theorem main_isolated (config : Config) (fuel : Nat) (w : World) (fresh : w.Fresh)
    (clean : ∀ tlsState unread,
      .noted (.inGetAuth tlsState) unread ∈ mainTrace config fuel w → unread = []) :
    (∀ reader source b, .took reader source b ∈ mainTrace config fuel w → source = reader) ∧
      ∀ (party : Party) (reader : IoId) (w' : World), w'.connId party = some reader →
        ∀ capture flag m fuel',
          (Program.run (fun op w => w.io party op) fuel' (tokenRead capture flag m) w').Meets
            (fun r w'' => ∀ t literal, r = some (t, literal) → ∃ events,
              w''.trace = w'.trace ++ events ∧
                t.buf.Sublist (events.filterMap (Event.taken reader)))
            fun _ => True := by
  obtain ⟨p, path⟩ := main_follows config fuel w fresh
  exact ⟨isolation_of_path path clean,
    fun party reader w' conn capture flag m fuel' => tokenRead_taken conn capture flag m fuel'⟩

/-- Where an attempt begins here, no bytes are unread. -/
def Event.beginsClean : Event → Bool
  | .noted (.inGetAuth _) unread => unread.isEmpty
  | _ => true

/-- A client that logs in. -/
def loginWorld : World :=
  .accepted [bytes "USER u\r\n", bytes "PASS p\r\n"] []
    [some ⟨[bytes "+OK hi\r\n", bytes "+OK\r\n", bytes "+OK\r\n"], [], []⟩]

theorem loginWorld_isolated :
    (mainTrace (.sample .pop3) 12 loginWorld).all Event.beginsClean = true ∧
      ∀ reader source b, .took reader source b ∈ mainTrace (.sample .pop3) 12 loginWorld →
        source = reader := by
  have clean : (mainTrace (.sample .pop3) 12 loginWorld).all Event.beginsClean = true := by
    decide +kernel
  refine ⟨clean, (main_isolated (.sample .pop3) 12 loginWorld (World.accepted_fresh _ _ _)
    fun tlsState unread member => ?_).1⟩
  simpa [Event.beginsClean] using List.all_eq_true.mp clean _ member

/-- The real server answers the greeting and QUIT with errors and sends a line more. -/
def leftoverWorld : World :=
  .accepted [bytes "USER u\r\n", bytes "PASS p\r\n"] []
    [some ⟨[bytes "-ERR no\r\n-ERR\r\nQUIT\r\n"], [], []⟩]

/-- What the real server sent is a command of the client in the next attempt. -/
theorem leftoverWorld_not_isolated :
    leftoverWorld.Fresh ∧ ∃ reader source b,
      .took reader source b ∈ mainTrace (.sample .pop3) 12 leftoverWorld ∧
        reader.party = .client ∧ source.party = .server :=
  ⟨World.accepted_fresh _ _ _, ⟨.client, 0, 0⟩, ⟨.server, 0, 0⟩, 81, by decide +kernel, rfl, rfl⟩

end Perdition
