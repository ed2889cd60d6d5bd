import Perdition.Lib.Observed
import Perdition.Verif.Attempts
import Perdition.Verif.Setup
import Perdition.Verif.Streams
import Perdition.World

/-!
# Plaintext around a handshake

Two worlds in which a peer sends the same up to its part of STARTTLS, and the same inside TLS, are
the same once the handshake is made and the read buffer is flushed, whatever else the peer has sent.
-/
namespace Perdition

open Lib Program

/-! ## Two worlds -/

/-- The world apart from the bytes that a party has yet to deliver on its connection and from what
is only recorded. -/
def World.beyond (w : World) (party : Party) : World :=
  { w with
    client := match party with
      | .client => { w.client with reads := [] }
      | .server => w.client
    server := match party with
      | .client => w.server
      | .server => w.server.map fun conn => { conn with reads := [] }
    unread := []
    source := w.client.id
    trace := [] }

/-- The bytes that a party has yet to deliver on its connection. -/
def World.stream (w : World) (party : Party) : Option (List Byte) :=
  (w.channel party).map Channel.stream

/-- Two worlds in which a party sends these bytes, and then others, and which are otherwise the
same. -/
structure Ahead (party : Party) (rest rest' common : List Byte) (w w' : World) : Prop where
  /-- All else is the same, and what the party sends inside TLS. -/
  same : w.beyond party = w'.beyond party
  /-- What the party sends in the first. -/
  first : w.stream party = some (common ++ rest)
  /-- What it sends in the second. -/
  second : w'.stream party = some (common ++ rest')

/-- The operation reads from the party. -/
def SessionOp.reads (party : Party) : SessionOp → Bool
  | .io reader .nextByte => reader == party
  | _ => false

/-- The operation is a handshake with the party. -/
def SessionOp.upgrades (party : Party) : SessionOp → Bool
  | .sslServerConnection => party == .client
  | .sslClientConnection => party == .server
  | _ => false

/-- How many bytes the operations ask a party for before the handshake with it. -/
def asked (party : Party) (ops : List SessionOp) : Nat :=
  (ops.takeWhile fun op => !op.upgrades party).countP (·.reads party)

/-! ## One operation -/

section Operations

variable {party : Party} {rest rest' common : List Byte} {w w' : World}

/-- The channels of the party in two such worlds. -/
theorem Ahead.channels (ahead : Ahead party rest rest' common w w') :
    ∃ ch ch', w.channel party = some ch ∧ w'.channel party = some ch' ∧
      ch.stream = common ++ rest ∧ ch'.stream = common ++ rest' ∧ ch.drained = ch'.drained := by
  have ⟨ch, here, first⟩ := Option.map_eq_some_iff.mp ahead.first
  have ⟨ch', here', second⟩ := Option.map_eq_some_iff.mp ahead.second
  refine ⟨ch, ch', here, here', first, second, ?_⟩
  have same := ahead.same
  simp only [World.beyond, World.mk.injEq] at same
  cases party with
  | client =>
    obtain rfl := Option.some.inj here
    obtain rfl := Option.some.inj here'
    simp only [Channel.drained, Channel.mk.injEq]
    have conns : ({ w.client with reads := [] } : Connection) =
        { w'.client with reads := [] } := same.1
    exact ⟨conns, trivial, (Connection.mk.inj conns).1, same.2.2.2.2.2.2.1⟩
  | server =>
    obtain ⟨conn, connected, rfl⟩ := Option.map_eq_some_iff.mp here
    obtain ⟨conn', connected', rfl⟩ := Option.map_eq_some_iff.mp here'
    have conns := same.2.1
    simp only [connected, connected', Option.map_some, Option.some.injEq] at conns
    simp only [Channel.drained, Channel.mk.injEq]
    exact ⟨conns, trivial, (Connection.mk.inj conns).1, same.2.2.2.2.2.2.1⟩

/-- What is beyond a channel stays so when the channel is put back. -/
theorem beyond_put (w : World) (party : Party) (ch : Channel) (events : List Event) :
    ((w.putChannel party ch).record events).beyond party =
      ((w.beyond party).putChannel party ch.drained).beyond party := by
  cases party <;> rfl

theorem stream_put (w : World) (party : Party) (ch : Channel) (events : List Event) :
    ((w.putChannel party ch).record events).stream party = some ch.stream := by
  cases party <;> rfl

/-- The worlds stay so where their channels do. -/
theorem Ahead.put (ahead : Ahead party rest rest' common w w') {ch ch' : Channel}
    {later : List Byte} {events events' : List Event} (first : ch.stream = later ++ rest)
    (second : ch'.stream = later ++ rest') (same : ch.drained = ch'.drained) :
    Ahead party rest rest' later ((w.putChannel party ch).record events)
      ((w'.putChannel party ch').record events') := by
  refine ⟨?_, ?_, ?_⟩
  · rw [beyond_put, beyond_put, ahead.same, same]
  · rw [stream_put, first]
  · rw [stream_put, second]

/-- A byte that both worlds deliver is taken in both. -/
theorem Ahead.take {b : Byte} (ahead : Ahead party rest rest' (b :: common) w w') :
    ∃ v v', w.io party .nextByte = .done (some b) v ∧ w'.io party .nextByte = .done (some b) v' ∧
      Ahead party rest rest' common v v' := by
  have ⟨ch, ch', here, here', first, second, same⟩ := ahead.channels
  have ⟨byte, reached⟩ := Channel.nextByte_cons first
  have ⟨byte', reached'⟩ := Channel.nextByte_cons second
  have drained := (reached.drained.trans same).trans reached'.drained.symm
  have taken {w : World} {ch : Channel} (here : w.channel party = some ch)
      (byte : ch.nextByte.1 = some b) : w.io party .nextByte =
        .done (some b) ((w.putChannel party ch.nextByte.2).record
          (ioEvents ch.conn.id ch.nextByte.2.source .nextByte (some b))) := by
    rw [World.io, here, ← byte]
    rfl
  exact ⟨_, _, taken here byte, taken here' byte', ahead.put reached.stream reached'.stream drained⟩

/-- An operation that does not read from a connection leaves the bytes it has yet to deliver. -/
theorem step_unread {op : IoOp} (other : op ≠ .nextByte) {ch ch' : Channel}
    (same : ch.drained = ch'.drained) :
    (∃ r after after', ch.step op = .done r after ∧ ch'.step op = .done r after' ∧
      (after.unread = ch.unread ∧ after.conn.reads = ch.conn.reads) ∧
      (after'.unread = ch'.unread ∧ after'.conn.reads = ch'.conn.reads) ∧
      after.drained = after'.drained) ∨
      ∃ why, ch.step op = .halted why ch ∧ ch'.step op = .halted why ch' := by
  obtain ⟨⟨id, type, reads, writes, handshakes⟩, unread, source, stale⟩ := ch
  obtain ⟨⟨id', type', reads', writes', handshakes'⟩, unread', source', stale'⟩ := ch'
  simp only [Channel.drained, Channel.mk.injEq, Connection.mk.injEq] at same
  obtain ⟨⟨rfl, rfl, _, rfl, rfl⟩, _, _, rfl⟩ := same
  cases op with
  | nextByte => exact absurd rfl other
  | write content =>
    cases writes <;> exact .inl ⟨_, _, _, rfl, rfl, ⟨rfl, rfl⟩, ⟨rfl, rfl⟩, rfl⟩
  | getType => exact .inl ⟨_, _, _, rfl, rfl, ⟨rfl, rfl⟩, ⟨rfl, rfl⟩, rfl⟩
  | stale count => exact .inl ⟨_, _, _, rfl, rfl, ⟨rfl, rfl⟩, ⟨rfl, rfl⟩, rfl⟩
  | fault why => exact .inr ⟨why, rfl, rfl⟩

/-- What an operation on a connection comes to, from what it does to its channel. -/
theorem io_done {op : IoOp} {ch after : Channel} {r : IoSig.Res op}
    (here : w.channel party = some ch) (done : ch.step op = .done r after) :
    w.io party op = .done r
      ((w.putChannel party after).record (ioEvents ch.conn.id after.source op r)) := by
  rw [World.io, here]
  dsimp only
  rw [done]

theorem io_halted {op : IoOp} {ch after : Channel} {why : Fault}
    (here : w.channel party = some ch) (halted : ch.step op = .halted why after) :
    w.io party op = .halted (.fault why) w := by
  rw [World.io, here]
  dsimp only
  rw [halted]

/-- The two outcomes are alike where the worlds stay so. -/
abbrev Alongside (party : Party) (rest rest' common : List Byte) {α : Type}
    (one other : Outcome World Stop α) : Prop :=
  Outcome.Related (fun _ v v' => Ahead party rest rest' common v v') (fun _ _ => True)
    (fun _ => False) one other

/-- Connections that are alike but for what they have yet to read are the same where they have yet
to read the same. -/
theorem conn_same {ch ch' : Channel} (same : ch.drained = ch'.drained)
    (reads : ch.conn.reads = ch'.conn.reads) : ch.conn = ch'.conn := by
  obtain ⟨⟨id, type, _, writes, handshakes⟩, _, _, _⟩ := ch
  obtain ⟨⟨id', type', _, writes', handshakes'⟩, _, _, _⟩ := ch'
  simp only [Channel.drained, Channel.mk.injEq, Connection.mk.injEq] at same reads ⊢
  exact ⟨same.1.1, same.1.2.1, reads, same.1.2.2.2.1, same.1.2.2.2.2⟩

theorem beyond_away {at_ : Party} (apart : at_ ≠ party) (w : World) (ch : Channel)
    (events : List Event) : ((w.putChannel at_ ch).record events).beyond party =
      ((w.beyond party).putChannel at_ ch).beyond party := by
  cases party <;> cases at_ <;> first | exact absurd rfl apart | skip
  · rfl
  · simp only [World.beyond, World.putChannel, World.record, Option.map_map, Function.comp_def]

theorem stream_away {at_ : Party} (apart : at_ ≠ party) {ch : Channel} (left : ch.unread = w.unread)
    (events : List Event) : ((w.putChannel at_ ch).record events).stream party = w.stream party := by
  cases party <;> cases at_ <;> first | exact absurd rfl apart | skip
  all_goals
    simp only [World.stream, World.channel, World.putChannel, World.record, Option.map_some,
      Option.map_map, Function.comp_def, Channel.stream, left]

/-- The connection with the other party is the same in both worlds. -/
theorem Ahead.shared {at_ : Party} (ahead : Ahead party rest rest' common w w')
    (apart : at_ ≠ party) : (w.channel at_ = none ∧ w'.channel at_ = none) ∨
      ∃ conn, w.channel at_ = some ⟨conn, w.unread, w.source, w.stale⟩ ∧
        w'.channel at_ = some ⟨conn, w'.unread, w'.source, w'.stale⟩ := by
  have same := World.mk.inj ahead.same
  cases party with
  | client =>
    cases at_ with
    | client => exact absurd rfl apart
    | server =>
      have servers : w.server = w'.server := same.2.1
      rw [World.channel, World.channel, ← servers]
      cases w.server with
      | none => exact .inl ⟨rfl, rfl⟩
      | some conn => exact .inr ⟨conn, rfl, rfl⟩
  | server =>
    cases at_ with
    | server => exact absurd rfl apart
    | client =>
      have clients : w.client = w'.client := same.1
      rw [World.channel, World.channel, ← clients]
      exact .inr ⟨w.client, rfl, rfl⟩

/-- Every other operation does the same in both worlds. -/
theorem Ahead.other {at_ : Party} {op : IoOp} (ahead : Ahead party rest rest' common w w')
    (other : op ≠ .nextByte) :
    Alongside party rest rest' common (w.io at_ op) (w'.io at_ op) := by
  by_cases here : at_ = party
  · subst here
    have ⟨ch, ch', one, two, first, second, same⟩ := ahead.channels
    rcases step_unread other same with ⟨r, after, after', done, done', left, left', drained⟩ |
      ⟨why, halted, halted'⟩
    · rw [io_done one done, io_done two done']
      refine .done (ahead.put ?_ ?_ drained)
      · rw [Channel.stream, left.1, left.2]
        exact first
      · rw [Channel.stream, left'.1, left'.2]
        exact second
    · rw [io_halted one halted, io_halted two halted']
      exact .halted trivial
  · rcases ahead.shared here with ⟨none_, none_'⟩ | ⟨conn, one, two⟩
    · rw [World.io, World.io, none_, none_']
      exact .halted trivial
    have stale : w.stale = w'.stale := (World.mk.inj ahead.same).2.2.2.2.2.2.1
    have same : (Channel.mk conn w.unread w.source w.stale).drained =
        (Channel.mk conn w'.unread w'.source w'.stale).drained := by
      rw [Channel.drained, Channel.drained, stale]
    rcases step_unread other same with ⟨r, after, after', done, done', left, left', drained⟩ |
      ⟨why, halted, halted'⟩
    · rw [io_done one done, io_done two done']
      have conns := conn_same drained (left.2.trans left'.2.symm)
      have put (w : World) : ((w.beyond party).putChannel at_ after).beyond party =
          ((w.beyond party).putChannel at_ after').beyond party := by
        cases party <;> cases at_ <;> simp only [World.beyond, World.putChannel, conns]
      refine .done ⟨?_, ?_, ?_⟩
      · rw [beyond_away here, beyond_away here, put, ahead.same]
      · rw [stream_away here left.1]
        exact ahead.first
      · rw [stream_away here left'.1]
        exact ahead.second
    · rw [io_halted one halted, io_halted two halted']
      exact .halted trivial

/-- What is only recorded makes no difference. -/
theorem Ahead.record (ahead : Ahead party rest rest' common w w') (events events' : List Event) :
    Ahead party rest rest' common (w.record events) (w'.record events') :=
  ⟨ahead.same, ahead.first, ahead.second⟩

end Operations

/-! ## Up to the handshake -/

section Asking

variable {party : Party} {rest rest' common : List Byte} {total : Nat}

theorem asked_more (party : Party) (ops more : List SessionOp) :
    asked party ops ≤ asked party (ops ++ more) := by
  rw [asked, asked, List.takeWhile_append]
  split
  · rename_i whole
    have all := (List.takeWhile_prefix (l := ops) fun op => !op.upgrades party).eq_of_length whole
    rw [List.countP_append, all]
    exact Nat.le_add_right _ _
  · exact le_rfl

/-- An operation before the handshake may ask for one more byte. -/
theorem asked_snoc {ops : List SessionOp} (before : ∀ op ∈ ops, op.upgrades party = false)
    {op : SessionOp} (plain : op.upgrades party = false) :
    asked party (ops ++ [op]) = asked party ops + if op.reads party then 1 else 0 := by
  have whole (ops : List SessionOp) (before : ∀ op ∈ ops, op.upgrades party = false) :
      (ops.takeWhile fun op => !op.upgrades party) = ops :=
    List.takeWhile_eq_self_iff.mpr fun op member => by rw [before op member]; rfl
  have more : ∀ other ∈ ops ++ [op], other.upgrades party = false := by
    intro other member
    rcases List.mem_append.mp member with old | new
    · exact before other old
    · rw [List.mem_singleton.mp new]
      exact plain
  rw [asked, asked, whole _ before, whole _ more, List.countP_append, List.countP_singleton]

/-- The operations keep to the connection with a party, or do not read from the other one. -/
def asking (party : Party) : Contract SessionSig where
  allowed
    | .io at_ op => at_ = party ∨ op ≠ .nextByte
    | .note _ => True
    | _ => False
  returns _ _ := True

/-- Before the handshake, with as many bytes asked for as are no longer ahead. -/
structure Together (party : Party) (rest rest' : List Byte) (total : Nat)
    (s : World × List SessionOp) (w' : World) : Prop where
  /-- No handshake was made. -/
  before : ∀ op ∈ s.2, op.upgrades party = false
  /-- The bytes that are ahead. -/
  ahead : ∃ common, Ahead party rest rest' common s.1 w' ∧
    asked party s.2 + common.length = total

/-- More bytes were asked for than both worlds share. -/
def Overrun (party : Party) (total : Nat) (s : World × List SessionOp) : Prop :=
  total < asked party s.2

theorem Overrun.of_ops {s : World × List SessionOp} {ops : List SessionOp} (same : s.2 = ops)
    (more : total < asked party ops) : Overrun party total s := by
  unfold Overrun
  rw [same]
  exact more

theorem overrun_lasting (party : Party) (total : Nat) (op : SessionOp)
    (s : World × List SessionOp) (gone : Overrun party total s) :
    Overrun party total (observed World.step op s).state :=
  .of_ops (observed_ops World.step op s) (Nat.lt_of_lt_of_le gone (asked_more party s.2 [op]))

/-- An operation before the handshake leaves the worlds together with as many bytes ahead as it did
not ask for. -/
theorem Together.snoc {ops : List SessionOp} (before : ∀ op ∈ ops, op.upgrades party = false)
    {op : SessionOp} (plain : op.upgrades party = false) {w w' : World}
    (ahead : Ahead party rest rest' common w w')
    (count : asked party ops + (if op.reads party then 1 else 0) + common.length = total) :
    Together party rest rest' total (w, ops ++ [op]) w' := by
  refine ⟨fun other member => ?_, common, ahead, ?_⟩
  · rcases List.mem_append.mp member with old | new
    · exact before other old
    · rw [List.mem_singleton.mp new]
      exact plain
  · dsimp only
    rw [asked_snoc before plain]
    exact count

/-- What every operation does in both worlds. -/
theorem together_step {op : SessionOp} (allowed : (asking party).allowed op)
    (s : World × List SessionOp) (w' : World) (together : Together party rest rest' total s w') :
    Outcome.Related (fun r s w' => (asking party).returns op r ∧
        Together party rest rest' total s w') (fun _ _ => True) (Overrun party total)
      (observed World.step op s) (World.step op w') := by
  have ⟨before, common, ahead, count⟩ := together
  cases op with
  | note what =>
    have quiet : (SessionOp.note what).reads party = false := by cases party <;> rfl
    have plain : (SessionOp.note what).upgrades party = false := by cases party <;> rfl
    exact .done ⟨trivial, .snoc before plain (ahead.record _ _) (by simpa [quiet] using count)⟩
  | io at_ op =>
    by_cases byte : op = .nextByte
    · subst byte
      obtain rfl : at_ = party := allowed.resolve_right fun other => other rfl
      have reads : (SessionOp.io at_ .nextByte).reads at_ = true := beq_self_eq_true at_
      cases common with
      | nil =>
        have one := @asked_snoc at_ s.2 before (.io at_ .nextByte) rfl
        rw [if_pos reads] at one
        rw [List.length_nil] at count
        have more : total < asked at_ (s.2 ++ [.io at_ .nextByte]) := by omega
        exact .escape (.of_ops (observed_ops World.step (SessionOp.io at_ .nextByte) s) more)
      | cons b common =>
        have ⟨v, v', one, two, later⟩ := ahead.take
        have first : observed World.step (.io at_ .nextByte) s =
            .done (some b) (v, s.2 ++ [.io at_ .nextByte]) := observed_done one
        have second : World.step (.io at_ .nextByte) w' = .done (some b) v' := two
        rw [first, second]
        refine .done ⟨trivial, .snoc before rfl later ?_⟩
        rw [if_pos reads]
        rw [List.length_cons] at count
        omega
    · have quiet : (SessionOp.io at_ op).reads party = false := by
        cases op <;> first | exact absurd rfl byte | rfl
      have counted : asked party s.2 + (if (SessionOp.io at_ op).reads party then 1 else 0) +
          common.length = total := by simpa [quiet] using count
      have related := @Ahead.other party rest rest' common s.1 w' at_ op ahead byte
      have kept := @observed_related SessionSig World Stop World World.step (.io at_ op) s _ _ _
        (Overrun party total) related
      refine kept.mono (fun r s' v' both => ?_)
        fun _ _ => id
      obtain ⟨v, ops⟩ := s'
      obtain rfl : ops = s.2 ++ [.io at_ op] := both.1
      exact ⟨trivial, .snoc before rfl both.2 counted⟩
  | _ => exact absurd allowed id

/-- A program that makes no handshake leaves the worlds together, or asks for more. -/
theorem together_relates {α : Type} {program : Session α} {result : α → Prop}
    (obeys : program.Obeys (asking party) result) :
    Relates (observed World.step) World.step (Together party rest rest' total) program
      (fun a s w' => result a ∧ Together party rest rest' total s w') (fun _ _ => True)
      (Overrun party total) :=
  relates_of_ops (overrun_lasting party total) obeys (fun _ allowed => together_step allowed)
    fun _ _ _ => trivial

/-- No handshake is made. -/
def unsecured (party : Party) : Contract SessionSig :=
  ⟨fun op : SessionOp => op.upgrades party = false, fun _ _ => True⟩

/-- A run that makes a handshake after a part that makes none: the part returned, and the worlds are
still together, unless it asks for more bytes than both worlds share. -/
theorem together_before {α β : Type} {front : Session β} {later : β → Session α}
    {result : β → Prop} (asks : front.Obeys (asking party) result) {fuel : Nat}
    {s : World × List SessionOp} {w' : World} (together : Together party rest rest' total s w')
    (within : asked party (Program.run (observed World.step) fuel (front >>= later) s).state.2 ≤
      total)
    (secured : ∃ op ∈ (Program.run (observed World.step) fuel (front >>= later) s).state.2,
      SessionOp.upgrades party op = true) :
    ∃ b s' v', Program.run (observed World.step) fuel front s = .done b s' ∧
      Program.run World.step fuel front w' = .done b v' ∧ result b ∧
      Together party rest rest' total s' v' ∧
      ∃ op ∈ (Program.run (observed World.step) fuel (later b) s').state.2,
        SessionOp.upgrades party op = true := by
  have plain : front.Obeys (unsecured party) result := by
    refine obeys_within asks (fun op allowed => ?_) fun _ _ => id
    cases op <;> first | exact absurd allowed id | (cases party <;> rfl)
  have related := together_relates asks fuel s w' together
  have avoids := observed_all World.step plain fuel s together.before
  change asked party ((Program.run (observed World.step) fuel front s).next fun value state =>
    Program.run (observed World.step) fuel (later value) state).state.2 ≤ total at within
  change ∃ op ∈ ((Program.run (observed World.step) fuel front s).next fun value state =>
    Program.run (observed World.step) fuel (later value) state).state.2,
    SessionOp.upgrades party op = true at secured
  generalize Program.run (observed World.step) fuel front s = one at *
  generalize Program.run World.step fuel front w' = other at *
  have never {why : ∃ op ∈ one.state.2, SessionOp.upgrades party op = true} : False := by
    obtain ⟨op, member, upgrades⟩ := why
    exact Bool.false_ne_true ((avoids op member).symm.trans upgrades)
  cases related with
  | escape gone =>
    have overrun : Overrun party total (one.next fun value state =>
        Program.run (observed World.step) fuel (later value) state).state := by
      cases one with
      | done value s => exact run_escaped (overrun_lasting party total) (later value) fuel s gone
      | halted why s => exact gone
      | looping s => exact gone
    exact absurd within (Nat.not_le.mpr overrun)
  | done holds => exact ⟨_, _, _, rfl, rfl, holds.1, holds.2, secured⟩
  | halted holds => exact absurd secured fun why => @never why
  | looping holds => exact absurd secured fun why => @never why

end Asking

/-! ## From the handshake on -/

/-- The worlds differ in nothing but in what was recorded, and in where bytes were read from of which
none are left. -/
def World.Like (w w' : World) : Prop :=
  ∃ trace source, w' = { w with trace := trace, source := source } ∧
    (w.unread ≠ [] → source = w.source)

/-- The worlds are reached from two others with the same events. -/
structure InStep (w w' v v' : World) : Prop where
  /-- They are alike. -/
  like : v.Like v'
  /-- The same has happened. -/
  events : ∃ events, v.trace = w.trace ++ events ∧ v'.trace = w'.trace ++ events

theorem InStep.start {w w' : World} (like : w.Like w') : InStep w w' w w' :=
  ⟨like, [], by simp, by simp⟩

/-- A channel does the same wherever the bytes were read from of which none are left. -/
theorem step_like (op : IoOp) (ch : Channel) {source : IoId}
    (same : ch.unread ≠ [] → source = ch.source) :
    (∃ r after source', ch.step op = .done r after ∧
      Channel.step op { ch with source := source } = .done r { after with source := source' } ∧
      (after.unread ≠ [] → source' = after.source) ∧
      ioEvents ch.conn.id source' op r = ioEvents ch.conn.id after.source op r) ∨
      ∃ why, ch.step op = .halted why ch ∧
        Channel.step op { ch with source := source } = .halted why { ch with source := source } := by
  obtain ⟨conn, unread, old, stale⟩ := ch
  cases op with
  | nextByte =>
    cases unread with
    | cons b rest =>
      obtain rfl := same (List.cons_ne_nil b rest)
      exact .inl ⟨_, _, _, rfl, rfl, fun _ => rfl, rfl⟩
    | nil =>
      cases read : conn.read with
      | mk chunk conn' =>
        cases chunk with
        | nil =>
          have first : (Channel.mk conn [] old stale).nextByte =
              (none, Channel.mk conn' [] old stale) := by
            simp only [Channel.nextByte, read]
          have second : (Channel.mk conn [] source stale).nextByte =
              (none, Channel.mk conn' [] source stale) := by
            simp only [Channel.nextByte, read]
          refine .inl ⟨none, Channel.mk conn' [] old stale, source, ?_, ?_, fun more => ?_, rfl⟩
          · rw [Channel.step, first]
          · rw [Channel.step, second]
          · exact absurd rfl more
        | cons b chunk =>
          have first (old : IoId) : (Channel.mk conn [] old stale).nextByte =
              (some b, Channel.mk conn' chunk conn'.id stale) := by
            simp only [Channel.nextByte, read]
          refine .inl ⟨some b, Channel.mk conn' chunk conn'.id stale, conn'.id, ?_, ?_,
            fun _ => rfl, rfl⟩
          · rw [Channel.step, first]
          · rw [Channel.step, first]
  | write content => exact .inl ⟨_, _, source, rfl, rfl, same, rfl⟩
  | getType => exact .inl ⟨_, _, source, rfl, rfl, same, rfl⟩
  | stale count => exact .inl ⟨_, _, source, rfl, rfl, same, rfl⟩
  | fault why => exact .inr ⟨why, rfl, rfl⟩

/-- PAM gives the same, whatever was recorded. -/
theorem nextPam_like (w : World) (trace : List Event) (source : IoId) :
    World.nextPam { w with trace := trace, source := source } =
      (w.nextPam.1, { w.nextPam.2 with trace := trace, source := source }) := by
  obtain ⟨_, _, _, _, _, _, _, _, _, pam, _⟩ := w
  cases pam <;> rfl

theorem nextPam_kept (w : World) :
    w.nextPam.2.trace = w.trace ∧ w.nextPam.2.unread = w.unread ∧ w.nextPam.2.source = w.source := by
  unfold World.nextPam
  cases w.pam <;> exact ⟨rfl, rfl, rfl⟩

/-- The handshake with the real server, as it comes out. -/
theorem sslClient_failed {w : World} {conn : Connection} (connected : w.server = some conn)
    (none_ : conn.upgrade = none) : World.step .sslClientConnection w =
      .done false (w.record [.upgradeFailed conn.id]) := by
  change w.sslClientConnection = _
  rw [World.sslClientConnection, connected]
  dsimp only
  rw [none_]
  rfl

theorem sslClient_done {w : World} {conn secured : Connection} (connected : w.server = some conn)
    (some_ : conn.upgrade = some secured) : World.step .sslClientConnection w =
      .done true ({ w with server := some secured }.record [.upgraded conn.id w.unread]) := by
  change w.sslClientConnection = _
  rw [World.sslClientConnection, connected]
  dsimp only
  rw [some_]
  rfl

/-- Every operation does the same in worlds that are alike. -/
theorem inStep_step {w w' : World} (op : SessionOp) (v v' : World) (together : InStep w w' v v') :
    Outcome.Related (fun (_ : SessionSig.Res op) s s' => True ∧ InStep w w' s s')
      (InStep w w') (fun _ => False) (World.step op v) (World.step op v') := by
  obtain ⟨⟨trace, source, rfl, same⟩, events, one, two⟩ := together
  have more {u u' : World} (happened : List Event) (like : u.Like u')
      (first : u.trace = v.trace ++ happened) (second : u'.trace = trace ++ happened) :
      InStep w w' u u' := by
    refine ⟨like, events ++ happened, ?_, ?_⟩
    · rw [first, one, List.append_assoc]
    · rw [second, ← List.append_assoc, ← two]
  have pam (event : Event) : InStep w w' (v.nextPam.2.record [event])
      ({ v.nextPam.2 with trace := trace, source := source }.record [event]) := by
    have ⟨told, unread, at_⟩ := nextPam_kept v
    refine more [event] ⟨trace ++ [event], source, rfl, ?_⟩ ?_ rfl
    · change v.nextPam.2.unread ≠ [] → source = v.nextPam.2.source
      rw [unread, at_]
      exact same
    · rw [← told]
      rfl
  cases op with
  | io party op =>
    have channels : World.channel { v with trace := trace, source := source } party =
        (v.channel party).map fun ch => { ch with source := source } := by
      cases party with
      | client => rfl
      | server => cases connected : v.server <;> simp [World.channel, connected]
    change Outcome.Related _ _ _ (v.io party op) (World.io party op _)
    cases here : v.channel party with
    | none =>
      rw [here] at channels
      rw [World.io, World.io, here, channels]
      exact .halted (more [] ⟨_, _, rfl, same⟩ (by simp) (by simp))
    | some ch =>
      rw [here, Option.map_some] at channels
      have unread : ch.unread = v.unread ∧ ch.source = v.source := by
        cases party with
        | client =>
          obtain rfl := Option.some.inj here
          exact ⟨rfl, rfl⟩
        | server =>
          obtain ⟨conn, _, rfl⟩ := Option.map_eq_some_iff.mp here
          exact ⟨rfl, rfl⟩
      have at_ : ch.unread ≠ [] → source = ch.source := by
        rw [unread.1, unread.2]
        exact same
      rcases step_like op ch at_ with ⟨r, after, source', done, done', same', told⟩ |
        ⟨why, halted, halted'⟩
      · rw [io_done here done, io_done channels done']
        refine .done ⟨trivial, more (ioEvents ch.conn.id after.source op r) ?_ ?_ ?_⟩
        · refine ⟨trace ++ ioEvents ch.conn.id source' op r, source', ?_, ?_⟩
          · cases party <;> rfl
          · cases party <;> exact same'
        · cases party <;> rfl
        · rw [← told]
          cases party <;> rfl
      · rw [io_halted here halted, io_halted channels halted']
        exact .halted (more [] ⟨_, _, rfl, same⟩ (by simp) (by simp))
  | tokenFlush =>
    exact .done ⟨trivial, more [.flushed] ⟨_, _, rfl, fun some_ => absurd rfl some_⟩ rfl rfl⟩
  | sslServerConnection =>
    change Outcome.Related _ _ _ (.done v.sslServerConnection.1 v.sslServerConnection.2)
      (.done (World.sslServerConnection _).1 (World.sslServerConnection _).2)
    unfold World.sslServerConnection
    dsimp only
    cases v.client.upgrade with
    | none =>
      exact .done ⟨trivial, more [.upgradeFailed v.client.id] ⟨_, _, rfl, same⟩ rfl rfl⟩
    | some conn =>
      exact .done ⟨trivial, more [.upgraded v.client.id v.unread] ⟨_, _, rfl, same⟩ rfl rfl⟩
  | sslClientConnection =>
    rcases Option.eq_none_or_eq_some v.server with connected | ⟨conn, connected⟩
    · have none_ (w : World) (connected : w.server = none) :
          World.step .sslClientConnection w = .halted .noServer w := by
        change w.sslClientConnection = _
        rw [World.sslClientConnection, connected]
        rfl
      rw [none_ v connected, none_ { v with trace := trace, source := source } connected]
      exact .halted (more [] ⟨_, _, rfl, same⟩ (by simp) (by simp))
    · rcases Option.eq_none_or_eq_some conn.upgrade with upgrade | ⟨secured, upgrade⟩
      · rw [sslClient_failed connected upgrade,
          @sslClient_failed { v with trace := trace, source := source } _ connected upgrade]
        exact .done ⟨trivial, more [.upgradeFailed conn.id] ⟨_, _, rfl, same⟩ rfl rfl⟩
      · rw [sslClient_done connected upgrade,
          @sslClient_done { v with trace := trace, source := source } _ _ connected upgrade]
        exact .done ⟨trivial, more [.upgraded conn.id v.unread] ⟨_, _, rfl, same⟩ rfl rfl⟩
  | clientOpen server port =>
    obtain ⟨_, _, servers, _, _, _, _, _, _, _, _⟩ := v
    cases servers with
    | nil => exact .done ⟨trivial, more [.openFailed] ⟨_, _, rfl, same⟩ rfl rfl⟩
    | cons script rest =>
      cases script with
      | none => exact .done ⟨trivial, more [.openFailed] ⟨_, _, rfl, same⟩ rfl rfl⟩
      | some script => exact .done ⟨trivial, more [.opened _] ⟨_, _, rfl, same⟩ rfl rfl⟩
  | closeServer =>
    obtain ⟨_, server, _, _, _, _, _, _, _, _, _⟩ := v
    cases server with
    | none =>
      have kept (trace : List Event) : trace = trace ++ [] := (List.append_nil trace).symm
      exact .done ⟨trivial, more [] ⟨_, _, rfl, same⟩ (kept _) (kept _)⟩
    | some conn => exact .done ⟨trivial, more [.closed conn.id] ⟨_, _, rfl, same⟩ rfl rfl⟩
  | map => exact .done ⟨trivial, more [] ⟨_, _, rfl, same⟩ (by simp) (by simp)⟩
  | pamStart user =>
    change Outcome.Related _ _ _ _ (.done (World.nextPam _).1
      ((World.nextPam _).2.record [.pamStarted user (World.nextPam _).1]))
    rw [nextPam_like]
    exact .done ⟨trivial, pam (.pamStarted user v.nextPam.1)⟩
  | pamAuthenticate user passwd =>
    change Outcome.Related _ _ _ _ (.done (World.nextPam _).1
      ((World.nextPam _).2.record [.pamAuthenticated user passwd (World.nextPam _).1]))
    rw [nextPam_like]
    exact .done ⟨trivial, pam (.pamAuthenticated user passwd v.nextPam.1)⟩
  | exit status => exact .halted (more [] ⟨_, _, rfl, same⟩ (by simp) (by simp))
  | note what => exact .done ⟨trivial, more [.noted what v.unread] ⟨_, _, rfl, same⟩ rfl rfl⟩

/-- Whatever is done next, it does the same in worlds that are alike, and the same happens. -/
theorem inStep_run {α : Type} (program : Session α) {w w' : World} (like : w.Like w')
    (fuel : Nat) : Outcome.Related (fun _ v v' => InStep w w' v v') (InStep w w')
      (fun _ => False) (Session.run program fuel w) (Session.run program fuel w') := by
  have related : Relates World.step World.step (InStep w w') program
      (fun _ v v' => True ∧ InStep w w' v v') (InStep w w') fun _ => False :=
    relates_of_ops (fun _ _ gone => gone) (obeys_any program)
      (fun op _ => inStep_step op) fun _ _ => id
  exact (related fuel w w' (.start like)).mono (fun _ _ _ both => both.2) fun _ _ => id

/-! ## The handshake -/

/-- The worlds are alike, and the same has happened since a handshake. -/
structure SameSince (v v' : World) : Prop where
  /-- They are alike. -/
  like : v.Like v'
  /-- The handshake, with what was unread then, and what has happened since. -/
  events : ∃ before before' id unread unread' since,
    v.trace = before ++ .upgraded id unread :: since ∧
    v'.trace = before' ++ .upgraded id unread' :: since

/-- The handshake has failed in both worlds. -/
def BothFailed (v v' : World) : Prop :=
  ∃ before before' id, v.trace = before ++ [.upgradeFailed id] ∧
    v'.trace = before' ++ [.upgradeFailed id]

/-- Both runs end in the same way after a handshake, and the same happens from there on. -/
abbrev SameBehaviour {α : Type} (one other : Outcome World Stop α) : Prop :=
  Outcome.Related (fun _ v v' => SameSince v v') (fun v v' => SameSince v v' ∨ BothFailed v v')
    (fun _ => False) one other

/-- Whatever is done in worlds in which the same has happened since the handshake. -/
theorem sameBehaviour_of_since {α : Type} (program : Session α) {w w' : World}
    (since : SameSince w w') (fuel : Nat) :
    SameBehaviour (Session.run program fuel w) (Session.run program fuel w') := by
  obtain ⟨like, before, before', id, unread, unread', happened, first, second⟩ := since
  have later {v v' : World} (together : InStep w w' v v') : SameSince v v' := by
    obtain ⟨like, events, one, two⟩ := together
    refine ⟨like, before, before', id, unread, unread', happened ++ events, ?_, ?_⟩
    · rw [one, first, List.append_assoc, List.cons_append]
    · rw [two, second, List.append_assoc, List.cons_append]
  exact (inStep_run program like fuel).mono (fun _ _ _ => later) fun _ _ => .inl ∘ later

/-- A handshake does not depend on what the peer has sent in front of it. -/
theorem upgrade_congr {conn conn' : Connection}
    (same : ({ conn with reads := [] } : Connection) = { conn' with reads := [] }) :
    conn.upgrade = conn'.upgrade := by
  obtain ⟨id, type, _, writes, handshakes⟩ := conn
  obtain ⟨id', type', _, writes', handshakes'⟩ := conn'
  simp only [Connection.mk.injEq] at same
  obtain ⟨rfl, rfl, _, rfl, rfl⟩ := same
  cases handshakes with
  | nil => rfl
  | cons handshake rest => cases handshake <;> rfl

/-- With the connection of the client made anew and nothing unread the worlds are alike. -/
theorem Ahead.secured_client {rest rest' common : List Byte} {w w' : World}
    (ahead : Ahead .client rest rest' common w w') (conn : Connection) (trace trace' : List Event) :
    World.Like { w with client := conn, unread := [], trace := trace }
      { w' with client := conn, unread := [], trace := trace' } := by
  have same := World.mk.inj ahead.same
  obtain ⟨_, server, servers, opened, _, _, stale, map, lookups, pam, _⟩ := same
  have server : w.server = w'.server := server
  refine ⟨trace', w'.source, ?_, fun some_ => absurd rfl some_⟩
  rw [World.mk.injEq]
  exact ⟨rfl, server.symm, servers.symm, opened.symm, rfl, rfl, stale.symm, map.symm, lookups.symm,
    pam.symm, rfl⟩

theorem Ahead.secured_server {rest rest' common : List Byte} {w w' : World}
    (ahead : Ahead .server rest rest' common w w') (conn : Connection) (trace trace' : List Event) :
    World.Like { w with server := some conn, unread := [], trace := trace }
      { w' with server := some conn, unread := [], trace := trace' } := by
  have same := World.mk.inj ahead.same
  obtain ⟨client, _, servers, opened, _, _, stale, map, lookups, pam, _⟩ := same
  have client : w.client = w'.client := client
  refine ⟨trace', w'.source, ?_, fun some_ => absurd rfl some_⟩
  rw [World.mk.injEq]
  exact ⟨client.symm, rfl, servers.symm, opened.symm, rfl, rfl, stale.symm, map.symm, lookups.symm,
    pam.symm, rfl⟩

/-! ### With the client -/

theorem client_asking {α : Type} (dialogue : Dialogue α) :
    (Session.client dialogue).Obeys (asking .client) fun _ => True :=
  obeys_interpret (obeys_any dialogue) fun _ _ => ⟨.inl rfl, fun _ _ => trivial⟩

theorem unsecured_locating : Locating (unsecured .client) where
  io _ _ := rfl
  closeServer := rfl
  pamStart _ := rfl
  pamAuthenticate _ _ := rfl
  exit _ := rfl
  cleanUp := rfl
  loggedIn := rfl
  map := rfl
  flush := rfl
  dial _ _ := rfl
  secure := rfl
  located _ := rfl
  inAuthenticated _ _ := rfl
  outSetup := rfl
  outAuthenticate _ := rfl

/-- But for STARTTLS no handshake with the client is made after `in_get_auth`. -/
theorem dispatch_unsecured (config : Config) (st : LoopState) {status : Int}
    (other : ¬ (status = 2 ∧ config.opt.sslMode.has sslModeTlsListen = true)) :
    (dispatch config st status).Obeys (unsecured .client) fun _ => True := by
  have ending := unsecured_locating.toEnding
  refine obeys_ite (fun _ => exit_obeys ending _) fun _ => ?_
  refine obeys_ite (fun _ => exit_obeys ending _) fun _ => ?_
  refine obeys_ite (fun starttls => absurd starttls other) fun _ => ?_
  refine obeys_step rfl fun _ _ => obeys_ite (fun _ => ?_) fun _ => ?_
  · exact obeys_step rfl fun _ _ => obeys_mono (failAttempt_obeys ending _ _ _) fun _ _ => trivial
  · exact obeys_mono (locateServer_obeys unsecured_locating _ _) fun _ _ => trivial

/-- A run that is kept is the run. -/
theorem run_of_observed {α : Type} {program : Session α} {fuel : Nat} {s s' : World × List SessionOp}
    {a : α} (run : Program.run (observed World.step) fuel program s = .done a s') :
    Program.run World.step fuel program s.1 = .done a s'.1 := by
  have related := observed_run World.step fuel program s
  rw [run] at related
  generalize Program.run World.step fuel program s.1 = other at related ⊢
  cases related with
  | escape gone => exact absurd gone id
  | done same => rw [same]

/-- What follows `in_get_auth` in a round. -/
def afterGetAuth (config : Config) (st : LoopState) (result : InAuth) : Attempt := do
  Session.perform .tokenFlush
  let st := { st with
    auth := result.auth.getD st.auth
    clientTag := if result.tag.isSome then result.tag else st.clientTag }
  Session.note (.gotAuth result.status st.auth)
  dispatch config st result.status

/-- The locals after `in_get_auth`. -/
def LoopState.got (st : LoopState) (result : InAuth) : LoopState :=
  { st with
    auth := result.auth.getD st.auth
    clientTag := if result.tag.isSome then result.tag else st.clientTag }

/-- The world in which the handshake with the client is made. -/
def World.flushed (w : World) (st : LoopState) (result : InAuth) : World :=
  ({ w with unread := [] }.record [.flushed]).record
    [.noted (.gotAuth result.status (st.got result).auth) []]

/-- The handshake with the client, and what follows it. -/
theorem starttls_run {config : Config} {st : LoopState} {result : InAuth}
    (starttls : result.status = 2 ∧ config.opt.sslMode.has sslModeTlsListen = true) {α : Type}
    (next : LoopState ⊕ LoopState → Session α) (fuel : Nat) (w : World) :
    Session.run (afterGetAuth config st result >>= next) fuel w =
      match w.client.upgrade with
      | none => .halted (.exit (-1)) ((w.flushed st result).record [.upgradeFailed w.client.id])
      | some conn => Session.run (do
          Session.note .starttls
          next (.inl { st.got result with tlsState := st.tlsState ||| sslModeTlsListen })) fuel
          ({ w.flushed st result with client := conn }.record [.upgraded w.client.id []]) := by
  have open_ : dispatch config (st.got result) result.status = (do
      if !(← Session.perform .sslServerConnection) then Session.exit (-1)
      else
        Session.note .starttls
        return .inl { st.got result with
          tlsState := (st.got result).tlsState ||| sslModeTlsListen }) := by
    unfold dispatch
    rw [if_neg (by omega), if_neg (by omega), if_pos starttls]
  change ((Program.run World.step fuel (dispatch config (st.got result) result.status)
    (w.flushed st result)).next fun r v => Program.run World.step fuel (next r) v) = _
  have ran : Program.run World.step fuel (Session.perform .sslServerConnection)
      (w.flushed st result) = match w.client.upgrade with
        | none => .done false ((w.flushed st result).record [.upgradeFailed w.client.id])
        | some conn => .done true
          ({ w.flushed st result with client := conn }.record [.upgraded w.client.id []]) := by
    change Outcome.done (w.flushed st result).sslServerConnection.1
      (w.flushed st result).sslServerConnection.2 = _
    have client : (w.flushed st result).client = w.client := rfl
    unfold World.sslServerConnection
    rw [client]
    cases w.client.upgrade <;> rfl
  rw [open_, run_bind, ran]
  cases w.client.upgrade <;> rfl

/-- Two worlds in which the client sends the same up to STARTTLS. -/
theorem starttls_client {config : Config} {st : LoopState} {fuel : Nat}
    {rest rest' common : List Byte} {w w' : World}
    (ahead : Ahead .client rest rest' common w w')
    (within : asked .client (operations World.step fuel (attempt config st) w) ≤ common.length)
    (secured : ∃ op ∈ operations World.step fuel (attempt config st) w,
      SessionOp.upgrades .client op = true) {α : Type}
    (next : LoopState ⊕ LoopState → Session α) :
    SameBehaviour (Session.run (attempt config st >>= next) fuel w)
      (Session.run (attempt config st >>= next) fuel w') := by
  have begun : Together .client rest rest' common.length
      (w.record [.noted (.inGetAuth st.tlsState) w.unread], [.note (.inGetAuth st.tlsState)])
      (w'.record [.noted (.inGetAuth st.tlsState) w'.unread]) :=
    ⟨by simp [SessionOp.upgrades], common, ahead.record _ _, by
      simp [asked, SessionOp.upgrades, SessionOp.reads]⟩
  obtain ⟨result, s, v', run, run', _, together, op, member, upgrades⟩ :=
    together_before (client_asking _) begun within secured
  have plain (w v : World) (ran : Program.run World.step fuel
      (Session.client (config.protocol.inGetAuth config.opt config.platform config.opt.sslMode
        st.tlsState)) (w.record [.noted (.inGetAuth st.tlsState) w.unread]) = .done result v) :
      Session.run (attempt config st >>= next) fuel w =
        Session.run (afterGetAuth config st result >>= next) fuel v := by
    change (((Program.run World.step fuel _ _).next fun r v =>
      Program.run World.step fuel (afterGetAuth config st r) v).next fun r v =>
        Program.run World.step fuel (next r) v) = _
    rw [ran]
    rfl
  by_cases starttls : result.status = 2 ∧ config.opt.sslMode.has sslModeTlsListen = true
  · rw [plain w s.1 (run_of_observed run), plain w' v' run', starttls_run starttls,
      starttls_run starttls]
    have ⟨_, left, ahead, _⟩ := together
    have clients := (World.mk.inj ahead.same).1
    have ids : s.1.client.id = v'.client.id := (Connection.mk.inj clients).1
    rw [upgrade_congr clients, ids]
    cases v'.client.upgrade with
    | none => exact .halted (.inr ⟨_, _, v'.client.id, rfl, rfl⟩)
    | some conn =>
      refine sameBehaviour_of_since _ ⟨ahead.secured_client conn _ _, ?_⟩ fuel
      exact ⟨_, _, v'.client.id, [], [], [], rfl, rfl⟩
  · -- without STARTTLS there is no handshake
    have plain : (afterGetAuth config st result).Obeys (unsecured .client) fun _ => True :=
      obeys_step rfl fun _ _ => obeys_step rfl fun _ _ => dispatch_unsecured config _ starttls
    have none_ := observed_all World.step plain fuel s together.before
    exact absurd ((none_ op member).symm.trans upgrades) Bool.false_ne_true

/-! ### With the real server -/

section OutSetup

variable {line : List Byte → Prop}

theorem imap4OutReadCapability_any (relay : Bool) (ok tag : Token) (capture : Option Capture)
    (str : CString) :
    (imap4OutReadCapability relay ok tag capture str).Obeys (sending line) fun _ => True := by
  refine obeys_then (imap4OutResponse_sending _ _ _ _) fun untagged => ?_
  refine obeys_ite (fun _ => trivial) fun _ => ?_
  refine obeys_then (imap4OutResponse_sending _ _ _ _) fun tagged => ?_
  exact obeys_ite (fun _ => trivial) fun _ => trivial

theorem imap4OutGetCapability_any (relay : Bool) (ok tag : Token) (capture : Option Capture)
    (str : CString) : (imap4OutGetCapability relay ok tag capture str).Obeys
      (sending fun _ => True) fun _ => True := by
  refine obeys_then (with_server_any _) fun written => ?_
  refine obeys_ite (fun _ => obeys_bind.mpr ?_) fun _ => ?_
  · exact obeys_then (dropTag_sending _) fun _ => trivial
  · refine obeys_then (imap4OutReadCapability_any _ _ _ _ _) fun _ => ?_
    exact obeys_then (dropTag_sending _) fun _ => trivial

theorem imap4OutStarttls_any (opt : Options) (tag : Token) (compared : Int) :
    (imap4OutStarttls opt tag compared).Obeys (sending fun _ => True) fun _ => True := by
  refine obeys_then (imap4OutGetCapability_any _ _ _ _ _) fun r => ?_
  refine obeys_ite (fun _ => trivial) fun _ => obeys_ite (fun _ => ?_) fun _ => ?_
  · exact obeys_ite (fun _ => trivial) fun _ => trivial
  · refine obeys_then (with_server_any _) fun written => obeys_ite (fun _ => trivial) fun _ => ?_
    refine obeys_then (imap4OutResponse_sending _ _ _ _) fun response => ?_
    exact obeys_ite (fun _ => trivial) fun _ => trivial

theorem imap4OutSetup_any (opt : Options) (platform : Platform) (tag : Token) :
    (imap4OutSetup opt platform tag).Obeys (sending fun _ => True) fun _ => True := by
  refine obeys_then (imap4OutResponse_sending _ _ _ _) fun response => ?_
  refine obeys_ite (fun _ => trivial) fun _ => ?_
  split
  · exact exchangeFault_obeys
  · split
    · exact exchangeFault_obeys
    · trivial
    · exact obeys_ite (fun _ => trivial) fun _ => obeys_ite (fun _ => trivial) fun _ =>
        imap4OutStarttls_any opt tag _

/-- `out_setup` does not read from the client, whatever the tag is. -/
theorem outSetup_any (protocol : Protocol) (opt : Options) (platform : Platform) (tag : Token) :
    (protocol.outSetup opt platform tag).Obeys (sending fun _ => True) fun _ => True := by
  cases protocol with
  | pop3 => exact obeys_then (sending_any (pop3OutSetup_sending opt platform)) fun _ => trivial
  | imap4 => exact imap4OutSetup_any opt platform tag
  | managesieve =>
    exact obeys_then (sending_any (managesieveOutSetup_sending opt platform)) fun _ => trivial

theorem server_asking {α : Type} {exchange : Exchange α}
    (holds : exchange.Obeys (sending line) fun _ => True) :
    (Session.exchange exchange).Obeys (asking .server) fun _ => True := by
  refine obeys_interpret holds fun op allowed => ⟨?_, fun _ _ => trivial⟩
  obtain ⟨party, op⟩ := op
  cases party with
  | server => exact .inl rfl
  | client =>
    refine .inr fun same => ?_
    subst same
    exact allowed

end OutSetup

theorem unsecured_ending : Ending (unsecured .server) where
  io _ _ := rfl
  closeServer := rfl
  pamStart _ := rfl
  pamAuthenticate _ _ := rfl
  exit _ := rfl
  cleanUp := rfl
  loggedIn := rfl

/-- A handshake with the real server follows `out_setup`. -/
def Securing (opt : Options) (status : Int) : Prop :=
  0 < status ∧ (opt.sslMode.has sslModeTlsOutgoing && statusHas status protocolSStarttls) = true

theorem authenticateServer_unsecured (config : Config) (st : LoopState) (auth : Auth)
    (status : Int) :
    (authenticateServer config st auth status).Obeys (unsecured .server) fun _ => True := by
  refine obeys_step rfl fun _ _ => obeys_step rfl fun _ _ => ?_
  refine obeys_then (exchange_obeys unsecured_ending _) fun result => ?_
  exact obeys_mono (finish_obeys unsecured_ending config st result) fun _ _ => trivial

/-- But for STARTTLS no handshake with the real server is made after `out_setup`. -/
theorem secureServer_unsecured (config : Config) (st : LoopState) (auth : Auth) {status : Int}
    (other : ¬ Securing config.opt status) :
    (secureServer config st auth status).Obeys (unsecured .server) fun _ => True := by
  have quits (reason : CString) : (quitAttempt config st reason).Obeys (unsecured .server)
      fun _ => True :=
    obeys_mono (quitAttempt_obeys unsecured_ending config st reason) fun _ _ => trivial
  refine obeys_ite (fun _ => quits _) fun some_ => ?_
  refine obeys_ite (fun _ => exit_obeys unsecured_ending _) fun positive => ?_
  refine obeys_ite (fun starttls => absurd ⟨by omega, starttls⟩ other) fun _ => ?_
  exact obeys_ite (fun _ => quits _) fun _ => authenticateServer_unsecured config st auth status

/-- What follows the handshake with the real server and `token_flush`. -/
def afterSecured (config : Config) (st : LoopState) (auth : Auth) (status : Int) : Attempt := do
  Session.note (.outAuthenticate auth)
  let saslMech : Nat := status.toNat &&& protocolSSaslPlain
  let result ← Session.exchange (config.protocol.outAuthenticate config.platform
    (st.tlsState ||| sslModeTlsOutgoing) auth saslMech st.ourTag (respCapture config st))
  finish config { st with tlsState := st.tlsState ||| sslModeTlsOutgoing } result

/-- The handshake with the real server, and what follows it. -/
theorem secured_run {config : Config} {st : LoopState} {auth : Auth} {status : Int}
    (starttls : Securing config.opt status) {α : Type} (next : LoopState ⊕ LoopState → Session α)
    (fuel : Nat) {w : World} {conn : Connection} (connected : w.server = some conn) :
    Session.run (secureServer config st auth status >>= next) fuel w =
      match conn.upgrade with
      | none => .halted (.exit (-1)) (w.record [.upgradeFailed conn.id])
      | some secured => Session.run (afterSecured config st auth status >>= next) fuel
          ({ { w with server := some secured }.record [.upgraded conn.id w.unread] with
            unread := [] }.record [.flushed]) := by
  obtain ⟨positive, starttls⟩ := starttls
  have open_ : secureServer config st auth status = (do
      if !(← Session.perform .sslClientConnection) then Session.exit (-1)
      else
        authenticateServer config { st with tlsState := st.tlsState ||| sslModeTlsOutgoing } auth
          status) := by
    unfold secureServer
    rw [if_neg (by omega), if_neg (by omega), if_pos starttls]
  rw [open_, Session.run, run_bind, run_bind]
  have failed (none_ : conn.upgrade = none) :
      Program.run World.step fuel (Session.perform .sslClientConnection) w =
        .done false (w.record [.upgradeFailed conn.id]) := sslClient_failed connected none_
  have done {secured : Connection} (some_ : conn.upgrade = some secured) :
      Program.run World.step fuel (Session.perform .sslClientConnection) w =
        .done true ({ w with server := some secured }.record [.upgraded conn.id w.unread]) :=
    sslClient_done connected some_
  rcases Option.eq_none_or_eq_some conn.upgrade with none_ | ⟨secured, some_⟩
  · rw [failed none_, none_]
    rfl
  · rw [done some_, some_]
    rfl

/-- What is left of `out_setup` and what follows it, once the exchange of `out_setup` is done. -/
theorem setUp_run {config : Config} {st : LoopState} {id : Mangled} {α : Type}
    {next : LoopState ⊕ LoopState → Session α} {fuel : Nat} {w v : World} {result : Int × Token}
    (ran : Program.run World.step fuel
      (Session.exchange (config.protocol.outSetup config.opt config.platform st.ourTag))
      (w.record [.noted .outSetup w.unread]) = .done result v) :
    Session.run ((do
      let id ← pure id
      let auth := st.auth.setAuthorisationId id.name
      Session.note .outSetup
      let (status, ourTag) ← Session.exchange
        (config.protocol.outSetup config.opt config.platform st.ourTag)
      secureServer config { st with ourTag := ourTag } auth status : Attempt) >>= next) fuel w =
      Session.run (secureServer config { st with ourTag := result.2 }
        (st.auth.setAuthorisationId id.name) result.1 >>= next) fuel v := by
  change (((Program.run World.step fuel _ _).next fun (r : Int × Token) v =>
    Program.run World.step fuel (secureServer config { st with ourTag := r.2 }
      (st.auth.setAuthorisationId id.name) r.1) v).next fun r v =>
        Program.run World.step fuel (next r) v) = _
  rw [ran]
  rfl

/-- Two worlds in which the real server sends the same up to its answer to STARTTLS. -/
theorem starttls_server {config : Config} {st : LoopState} {fuel : Nat}
    {rest rest' common : List Byte} {w w' : World}
    (ahead : Ahead .server rest rest' common w w')
    (within : asked .server (operations World.step fuel (setUpServer config st) w) ≤ common.length)
    (secured : ∃ op ∈ operations World.step fuel (setUpServer config st) w,
      SessionOp.upgrades .server op = true) {α : Type}
    (next : LoopState ⊕ LoopState → Session α) :
    SameBehaviour (Session.run (setUpServer config st >>= next) fuel w)
      (Session.run (setUpServer config st >>= next) fuel w') := by
  cases named : mangledName config st.auth stateRemoteLogin with
  | none =>
    -- without a name for the real server nothing is sent to it
    have plain : (setUpServer config st).Obeys (unsecured .server) fun _ => True := by
      refine obeys_bind.mpr (obeys_mono (mangledId_obeys unsecured_ending _ _ _) fun id some_ => ?_)
      rw [named] at some_
      exact absurd some_ (by simp)
    obtain ⟨op, member, upgrades⟩ := secured
    have none_ := observed_all World.step plain fuel (w, []) (by simp)
    exact absurd ((none_ op member).symm.trans upgrades) Bool.false_ne_true
  | some id =>
    unfold setUpServer at within secured ⊢
    rw [mangledId_pure named] at within secured ⊢
    have begun : Together .server rest rest' common.length
        (w.record [.noted .outSetup w.unread], [.note .outSetup])
        (w'.record [.noted .outSetup w'.unread]) :=
      ⟨by simp [SessionOp.upgrades], common, ahead.record _ _, by
        simp [asked, SessionOp.upgrades, SessionOp.reads]⟩
    obtain ⟨result, s, v', run, run', _, together, op, member, upgrades⟩ :=
      together_before (server_asking (outSetup_any config.protocol config.opt config.platform
        st.ourTag)) begun within secured
    have plain (w v : World) := @setUp_run config st id α next fuel w v result
    obtain ⟨before, left, ahead, _⟩ := together
    by_cases starttls : Securing config.opt result.1
    · have servers : s.1.server.map _ = v'.server.map _ := (World.mk.inj ahead.same).2.1
      obtain ⟨conn, connected, _⟩ := Option.map_eq_some_iff.mp
        (Option.map_eq_some_iff.mp ahead.first).choose_spec.1
      obtain ⟨conn', connected', _⟩ := Option.map_eq_some_iff.mp
        (Option.map_eq_some_iff.mp ahead.second).choose_spec.1
      rw [connected, connected', Option.map_some, Option.map_some, Option.some.injEq] at servers
      have ids : conn.id = conn'.id := (Connection.mk.inj servers).1
      rw [plain w s.1 (run_of_observed run), plain w' v' run', secured_run starttls _ _ connected,
        secured_run starttls _ _ connected', upgrade_congr servers, ids]
      cases conn'.upgrade with
      | none => exact .halted (.inr ⟨_, _, conn'.id, rfl, rfl⟩)
      | some secured =>
        refine sameBehaviour_of_since _ ⟨ahead.secured_server secured _ _, ?_⟩ fuel
        refine ⟨s.1.trace, v'.trace, conn'.id, s.1.unread, v'.unread, [.flushed], ?_, ?_⟩
        · exact List.append_assoc _ _ _
        · exact List.append_assoc _ _ _
    · -- without STARTTLS there is no handshake
      have none_ := observed_all World.step (secureServer_unsecured config
        { st with ourTag := result.2 } (st.auth.setAuthorisationId id.name) starttls) fuel s before
      exact absurd ((none_ op member).symm.trans upgrades) Bool.false_ne_true

/-! ## Both handshakes -/

/-- What a peer sends in plaintext after its part of STARTTLS makes no difference: where two peers
send the same up to it, in whatever reads, and the same inside TLS, a session that makes the
handshake after asking for no more than that goes on in the same way with both, whatever else they
have sent. The client is followed from a call of `in_get_auth` on, the real server from its
greeting. -/
theorem starttls_injection (config : Config) (st : LoopState) (fuel : Nat) {α : Type}
    (next : LoopState ⊕ LoopState → Session α) (rest rest' common : List Byte) (w w' : World) :
    (Ahead .client rest rest' common w w' →
      asked .client (operations World.step fuel (attempt config st) w) ≤ common.length →
      (∃ op ∈ operations World.step fuel (attempt config st) w,
        SessionOp.upgrades .client op = true) →
      SameBehaviour (Session.run (attempt config st >>= next) fuel w)
        (Session.run (attempt config st >>= next) fuel w')) ∧
    (Ahead .server rest rest' common w w' →
      asked .server (operations World.step fuel (setUpServer config st) w) ≤ common.length →
      (∃ op ∈ operations World.step fuel (setUpServer config st) w,
        SessionOp.upgrades .server op = true) →
      SameBehaviour (Session.run (setUpServer config st >>= next) fuel w)
        (Session.run (setUpServer config st >>= next) fuel w')) :=
  ⟨fun ahead within secured => starttls_client ahead within secured next,
    fun ahead within secured => starttls_server ahead within secured next⟩

/-- POP3 with STARTTLS on both sides. -/
def Config.upgrading : Config :=
  { Config.sample .pop3 with
    opt := { Options.sample with sslMode := sslModeTlsListen ||| sslModeTlsOutgoing } }

/-- The locals where a login is tried. -/
def LoopState.trying : LoopState :=
  { LoopState.start Config.upgrading with auth := Auth.setPwd (some (lit "u")) (some (lit "p")) }

/-- A client that sends STLS, and more in the same read. -/
def stlsAnd (more : String) : World :=
  .accepted [bytes "STLS\r\n" ++ bytes more] [some [bytes "QUIT\r\n"]] []

/-- A real server that accepts STLS, and sends more in the same read. -/
def acceptedAnd (more : String) : World :=
  { World.accepted [] [] [] with
    server := some ⟨⟨.server, 0, 0⟩, .fd,
      [bytes "+OK hi\r\n", bytes "+OK\r\nSTLS\r\n.\r\n", bytes "+OK\r\n" ++ bytes more], [],
      [some [bytes "+OK\r\n", bytes "+OK\r\n"]]⟩
    opened := 1 }

/-- A login that is sent after STLS, and answers that are sent after STLS was accepted, are not
used. -/
theorem starttls_injected :
    SameBehaviour
        (Session.run (attempt Config.upgrading .trying >>= pure) 16
          (stlsAnd "USER u\r\nPASS p\r\n"))
        (Session.run (attempt Config.upgrading .trying >>= pure) 16 (stlsAnd "")) ∧
      SameBehaviour
        (Session.run (setUpServer Config.upgrading .trying >>= pure) 16
          (acceptedAnd "-ERR\r\n"))
        (Session.run (setUpServer Config.upgrading .trying >>= pure) 16 (acceptedAnd "")) :=
  ⟨(starttls_injection Config.upgrading .trying 16 pure (bytes "USER u\r\nPASS p\r\n") []
      (bytes "STLS\r\n") _ _).1 ⟨rfl, rfl, rfl⟩ (by decide +kernel)
      (List.any_eq_true.mp (by decide +kernel)),
    (starttls_injection Config.upgrading .trying 16 pure (bytes "-ERR\r\n") []
      (bytes "+OK hi\r\n+OK\r\nSTLS\r\n.\r\n+OK\r\n") _ _).2 ⟨rfl, by decide, by decide⟩
      (by decide +kernel) (List.any_eq_true.mp (by decide +kernel))⟩

end Perdition
