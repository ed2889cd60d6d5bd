import Perdition.Verif.Handshake

/-!
# Tags of commands

The tag of the program is moved on after a command that is answered, so two commands have one tag where
an answer is not understood and the session goes on all the same, and two tags are the same to
`token_cmp` where one has a letter in upper case and the other in lower case. Neither happens in a session
whose CAPABILITY commands are answered and whose tags have no upper case letter yet.
-/
namespace Perdition

open Lib Program

/-! ## Commands -/

/-- What was said to the real servers and heard from them. -/
def World.log (w : World) : Log := w.trace.foldl Log.add .start

/-- The tag of a command. -/
def commandTag (said : List Byte) : Token := ⟨said.takeWhile (· ≠ space), tokenNone⟩

/-- What follows the tag of a command. -/
def commandText (said : List Byte) : List Byte := said.dropWhile (· ≠ space)

/-- The command is LOGIN. It announces two literals, which are sent by two more messages. -/
def isLogin (said : List Byte) : Bool := (bytes " LOGIN ").isPrefixOf (commandText said)

/-- The commands among the messages. -/
structure Commands where
  /-- The commands, in their order. -/
  sent : List (List Byte)
  /-- The count of messages that belong to the last one and are still to come. -/
  more : Nat
  deriving DecidableEq

/-- One more message. A message that is not written is no command. -/
def Commands.add (commands : Commands) (turn : Turn) : Commands :=
  if 0 < commands.more then { commands with more := commands.more - 1 }
  else if turn.sent then ⟨commands.sent ++ [turn.said], if isLogin turn.said then 2 else 0⟩
  else commands

/-- The commands among a message and those before it. -/
def commandsFrom : Turn → List Turn → Commands
  | _, [] => ⟨[], 0⟩
  | now, before :: past => (commandsFrom before past).add now

namespace Log

/-- The commands. -/
def commands (log : Log) : Commands := commandsFrom log.now log.past

/-- The tags of the commands. -/
def tags (log : Log) : List Token := log.commands.sent.map commandTag

end Log

/-- No two of these tags are the same to `token_cmp`. -/
def TagsFresh (tags : List Token) : Prop :=
  tags.Pairwise fun before after => tokenCmp before after = false ∧ tokenCmp after before = false

instance (tags : List Token) : Decidable (TagsFresh tags) :=
  inferInstanceAs (Decidable (tags.Pairwise _))

/-! ## The condition -/

/-- The message asks for the capabilities. -/
def Turn.Asks (turn : Turn) : Prop := commandText turn.said = space :: bytes "CAPABILITY" ++ crlf

instance (turn : Turn) : Decidable turn.Asks :=
  inferInstanceAs (Decidable (commandText turn.said = _))

/-- An answer to CAPABILITY: a capability line that lists something, untagged lines that can be relayed,
and a line with the tag. Where there is a buffer the lines fit it. -/
structure CapabilityAnswer (buffered : Bool) (tag : Token) (first : List Byte)
    (others : List (List Byte)) (last : List Byte) : Prop where
  /-- The lines before the last one. -/
  untagged : UntaggedLines (first :: others)
  /-- The first line is a capability line. -/
  capability : CapabilityLine first
  /-- It lists something. -/
  lists : 2 < (replyWords first).length
  /-- The others can be relayed. -/
  relayed : ∀ line ∈ others, Relayed [] line
  /-- The last line is whole. -/
  whole : lf ∉ last
  /-- It has the tag. -/
  awaited : tokenCmp tag (lineTag last) = true
  /-- It has another word. -/
  second : lineQueue last ≠ []
  /-- The lines are shorter than the buffer. -/
  small : buffered → ∀ line ∈ first :: others ++ [last], line.length + 2 < maxLineLength
  /-- After the first line none is longer than the line before it. -/
  chain : buffered →
    (others ++ [last]).IsChain fun before after => after.length ≤ before.length

/-- The message was answered as CAPABILITY is. -/
def Turn.Answered (buffered : Bool) (turn : Turn) : Prop :=
  turn.silent = false ∧ ∃ first others last more,
    turn.heard = wire (first :: others) ++ (last ++ lf :: more) ∧
      CapabilityAnswer buffered (commandTag turn.said) first others last

/-- What a message is answered before another follows, if it asks for the capabilities. -/
def Turn.Settled (buffered : Bool) (turn : Turn) : Prop :=
  turn.sent → turn.Asks → turn.Answered buffered

/-- Every CAPABILITY command that a message followed was answered, and the client could be written to. -/
structure Log.Kept (buffered : Bool) (log : Log) : Prop where
  /-- The messages before the last one. -/
  answered : ∀ turn ∈ log.past, turn.Settled buffered
  /-- The messages to the client. -/
  told : ∀ message ∈ log.told, message.2 = true

/-- A tag without a letter in upper case. -/
def LowerTag (tag : Token) : Prop := ∀ b ∈ tag.buf, isUpper b = false

instance (tag : Token) : Decidable (LowerTag tag) :=
  inferInstanceAs (Decidable (∀ b ∈ tag.buf, isUpper b = false))

/-! ## The tags of the program -/

/-- The tag after so many increments. -/
def ourTag (n : Nat) : Token := imap4TagInc^[n] imap4TagCreate

theorem ourTag_succ (n : Nat) : ourTag (n + 1) = imap4TagInc (ourTag n) :=
  Function.iterate_succ_apply' ..

theorem ourTag_ours (n : Nat) : OurTag (ourTag n) := by
  induction n with
  | zero => exact .create
  | succ n ih =>
    rw [ourTag_succ]
    exact ih.inc

/-- The tags of commands, where the next one has this number: a number may be left out, and no more than
one in a row. -/
inductive Numbered : List Token → Nat → Prop where
  /-- Before the first command. -/
  | start : Numbered [] 0
  /-- A command, and the tag after it. -/
  | next {tags : List Token} {n m : Nat} (before : Numbered tags n) (after : m = n + 1 ∨ m = n + 2) :
    Numbered (tags ++ [ourTag n]) m

/-- The tags that follow the lower case letters have an upper case letter. -/
theorem ourTag_upper : ∀ n ∈ [29, 30], ¬ LowerTag (ourTag n) := by decide +kernel

/-- The tags before them are told apart. -/
theorem ourTag_apart : ∀ m < 29, ∀ n < m,
    tokenCmp (ourTag n) (ourTag m) = false ∧ tokenCmp (ourTag m) (ourTag n) = false := by
  decide +kernel

/-- Tags without an upper case letter are among the first ones. -/
theorem Numbered.lower {tags : List Token} {n : Nat} (numbered : Numbered tags n)
    (lower : ∀ tag ∈ tags, LowerTag tag) :
    n ≤ 30 ∧ TagsFresh tags ∧ ∀ tag ∈ tags, ∃ m < n, m < 29 ∧ tag = ourTag m := by
  induction numbered with
  | start => exact ⟨by omega, .nil, by simp⟩
  | @next tags n m before after ih =>
    have ⟨bound, fresh, among⟩ := ih fun tag member => lower tag (by simp [member])
    have small : n < 29 := by
      by_contra large
      have last : LowerTag (ourTag n) := lower _ (by simp)
      exact ourTag_upper n (by simp; omega) last
    refine ⟨by omega, ?_, fun tag member => ?_⟩
    · refine List.pairwise_append.mpr ⟨fresh, List.pairwise_singleton .., ?_⟩
      intro tag member other same
      have ⟨k, earlier, _, named⟩ := among tag member
      rw [List.mem_singleton.mp same, named]
      exact ourTag_apart n small k earlier
    · rcases List.mem_append.mp member with old | new
      · have ⟨k, earlier, first, named⟩ := among tag old
        exact ⟨k, by omega, first, named⟩
      · exact ⟨n, by omega, small, List.mem_singleton.mp new⟩

/-! ## Logs -/

/-- The tags of the commands are those of the program up to this number, and so many messages belong to
the last command and are still to come. -/
def Counted (buffered : Bool) (more n : Nat) (log : Log) : Prop :=
  log.Kept buffered → log.commands.more = more ∧ Numbered log.tags n

/-- If the last message was answered, the tags of the commands are those of the program up to this
number. -/
def Pending (buffered : Bool) (n : Nat) (log : Log) : Prop :=
  log.now.Settled buffered → Counted buffered 0 n log

/-- The tags of the commands are those of the program. -/
def Spoken (buffered : Bool) (log : Log) : Prop :=
  log.Kept buffered → ∃ n, Numbered log.tags n

/-- The last message is a command with the tag of this number, and it was written. -/
def JustAsked (buffered : Bool) (n : Nat) (log : Log) : Prop :=
  log.Kept buffered → log.commands.more = 0 ∧
    ∃ before, log.tags = before ++ [ourTag n] ∧ Numbered before n

section Logs

variable {buffered : Bool} {n more : Nat} {log : Log} {content : List Byte} {ok : Bool}

theorem Counted.spoken (counted : Counted buffered more n log) : Spoken buffered log :=
  fun kept => ⟨n, (counted kept).2⟩

theorem Counted.pending (counted : Counted buffered 0 n log) : Pending buffered n log :=
  fun _ => counted

/-- The tag moves on once or twice after a command. -/
theorem JustAsked.counted (asked : JustAsked buffered n log) {m : Nat}
    (after : m = n + 1 ∨ m = n + 2) : Counted buffered 0 m log := by
  intro kept
  have ⟨none_, before, tags, numbered⟩ := asked kept
  rw [tags]
  exact ⟨none_, numbered.next after⟩

/-- What is kept once more is said was kept before, and the last message was answered. -/
theorem Log.Kept.before (kept : (log.say content ok).Kept buffered) :
    log.Kept buffered ∧ log.now.Settled buffered :=
  ⟨⟨fun turn member => kept.answered turn (List.mem_cons_of_mem _ member), kept.told⟩,
    kept.answered log.now (List.mem_cons_self ..)⟩

theorem commands_say (log : Log) (content : List Byte) (ok : Bool) :
    (log.say content ok).commands = log.commands.add ⟨content, ok, [], false⟩ := rfl

/-- A command is sent with the next tag. -/
theorem Pending.say (pending : Pending buffered n log) (tag : commandTag content = ourTag n)
    (alone : isLogin content = false) : JustAsked buffered n (log.say content true) := by
  intro kept
  have ⟨before, settled⟩ := kept.before
  have ⟨none_, numbered⟩ := pending settled before
  have added : (log.say content true).commands = ⟨log.commands.sent ++ [content], 0⟩ := by
    rw [commands_say, Commands.add, none_]
    simp [alone]
  refine ⟨by rw [added], log.tags, ?_, numbered⟩
  rw [Log.tags, added, List.map_append, List.map_singleton, tag]
  rfl

/-- LOGIN is sent with the next tag. -/
theorem Pending.sayLogin (pending : Pending buffered n log) (tag : commandTag content = ourTag n)
    (login : isLogin content = true) : Counted buffered 2 (n + 1) (log.say content true) := by
  intro kept
  have ⟨before, settled⟩ := kept.before
  have ⟨none_, numbered⟩ := pending settled before
  have added : (log.say content true).commands = ⟨log.commands.sent ++ [content], 2⟩ := by
    rw [commands_say, Commands.add, none_]
    simp [login]
  refine ⟨by rw [added], ?_⟩
  rw [Log.tags, added, List.map_append, List.map_singleton, tag]
  exact numbered.next (.inl rfl)

/-- A command that is not written leaves the next tag as it is. -/
theorem Pending.fail (pending : Pending buffered n log) (content : List Byte) :
    Counted buffered 0 n (log.say content false) := by
  intro kept
  have ⟨before, settled⟩ := kept.before
  have ⟨none_, numbered⟩ := pending settled before
  have same : (log.say content false).commands = log.commands := by
    rw [commands_say, Commands.add, none_]
    simp
  rw [Log.tags, same]
  exact ⟨none_, numbered⟩

/-- A message that belongs to a command. -/
theorem Counted.say (counted : Counted buffered (more + 1) n log) (content : List Byte) (ok : Bool) :
    Counted buffered more n (log.say content ok) := by
  intro kept
  have ⟨some_, numbered⟩ := counted kept.before.1
  have added : (log.say content ok).commands = { log.commands with more := more } := by
    rw [commands_say, Commands.add, some_]
    simp
  refine ⟨by rw [added], ?_⟩
  rw [Log.tags, added]
  exact numbered

/-- The client being told more leaves what is known of the commands as it is. -/
theorem Log.Kept.untold (kept : (log.tell content ok).Kept buffered) : log.Kept buffered :=
  ⟨kept.answered, fun message member => kept.told message (by simp [Log.tell, member])⟩

end Logs

/-! ## Listening -/

section Listening

variable {buffered : Bool} {n more : Nat} {t t' : Talk}

/-- Listening leaves the commands as they are. -/
theorem Talk.Listened.commands (listened : t.Listened t') : t'.log.commands = t.log.commands := by
  have now (turn turn' : Turn) (said : turn'.said = turn.said) (sent : turn'.sent = turn.sent)
      (past : List Turn) : commandsFrom turn' past = commandsFrom turn past := by
    cases past with
    | nil => rfl
    | cons before past => simp only [commandsFrom, Commands.add, said, sent]
  rw [Log.commands, Log.commands, listened.past]
  exact now _ _ listened.said listened.sent _

theorem Talk.Listened.tags (listened : t.Listened t') : t'.log.tags = t.log.tags := by
  rw [Log.tags, Log.tags, listened.commands]

theorem Talk.Listened.kept (listened : t.Listened t') (kept : t'.log.Kept buffered) :
    t.log.Kept buffered :=
  ⟨fun turn member => kept.answered turn (listened.past ▸ member),
    fun message member => kept.told message (listened.told.subset member)⟩

theorem Counted.listened (counted : Counted buffered more n t.log) (listened : t.Listened t') :
    Counted buffered more n t'.log := by
  intro kept
  rw [listened.commands, listened.tags]
  exact counted (listened.kept kept)

theorem JustAsked.listened (asked : JustAsked buffered n t.log) (listened : t.Listened t') :
    JustAsked buffered n t'.log := by
  intro kept
  rw [listened.commands, listened.tags]
  exact asked (listened.kept kept)

theorem Spoken.listened (spoken : Spoken buffered t.log) (listened : t.Listened t') :
    Spoken buffered t'.log := by
  intro kept
  rw [listened.tags]
  exact spoken (listened.kept kept)

end Listening

/-! ## An answered CAPABILITY -/

/-- Whether a line can be relayed does not depend on old bytes of the write buffer. -/
theorem relayed_stale {line : List Byte} (relayed : Relayed [] line) (stale : List Byte) :
    Relayed stale line := by
  have message (r : Relay) : (∃ content, r = .message content) ↔ r ≠ .refused ∧ ∀ why, r ≠ .fault why := by
    cases r <;> simp
  have bytes_ (stale : List Byte) : Relayed stale line ↔ ∃ content, relayOf stale line = .message content := by
    rw [Relayed, relayBytes]
    cases relayOf stale line <;> simp
  rw [bytes_, message] at relayed ⊢
  revert relayed
  unfold relayOf relay
  cases lineQueue line with
  | nil => exact id
  | cons command info =>
    dsimp only
    cases queueToString info with
    | none => exact id
    | some info =>
      dsimp only
      split
      · exact id
      · unfold relayExpanded
        split
        · exact id
        · split
          · exact id
          · unfold relayText
            split
            · exact id
            · simp

/-- A response that stops among lines that can be relayed could not write to the client. -/
theorem passLines_untold {lines : List (List Byte)} :
    ∀ {capture : Option Capture} {t t' : Talk} {r : Response},
      (∀ line ∈ lines, Relayed t.stale line) →
      t.passLines true lines capture = .done (.inr r) t' → ∃ content, (content, false) ∈ t'.log.told := by
  induction lines with
  | nil => exact fun _ passed => nomatch passed
  | cons line lines ih =>
    intro capture t t' r relayed passed
    have first : relay (t.hearLine line).stale (lineTag line) (lineQueue line) =
        .message (relayBytes t.stale line) := relayed line (List.mem_cons_self ..)
    rw [Talk.passLines, Talk.passOn, if_pos rfl, first] at passed
    simp only [Talk.relayed, Outcome.next_done] at passed
    have ok : ((t.hearLine line).tell (relayBytes t.stale line)).1 = t.clientWrites.headD true := rfl
    rw [ok] at passed
    cases written : t.clientWrites.headD true with
    | true =>
      rw [written, if_pos rfl, if_neg (by decide)] at passed
      dsimp only at passed
      exact ih (t := ((t.hearLine line).tell (relayBytes t.stale line)).2)
        (fun other member => relayed other (List.mem_cons_of_mem _ member)) passed
    | false =>
      rw [written] at passed
      refine ⟨relayBytes t.stale line, ?_⟩
      rw [← (Outcome.done.inj passed).2]
      change _ ∈ (t.log.hear (line ++ [lf])).told ++ [(_, t.clientWrites.headD true)]
      rw [written]
      simp

/-- What a lookup returns was there before the tag was dropped from the buffer. -/
theorem lookup_dropped {outcome : Outcome Talk Stop (Int × Token × Option Capture)} {fuel : Nat}
    {r : Int × Token × Option Capture} {t' : Talk}
    (run : (outcome.next fun r t => ((Capture.dropTag r.2.2).run Talk.step fuel t).next
      fun capture t => .done (r.1, r.2.1, capture) t) = .done r t') :
    ∃ capture, outcome = .done (r.1, r.2.1, capture) t' := by
  cases outcome with
  | done r₁ t₁ =>
    rw [Outcome.next_done, Capture.dropTag.eq_def] at run
    refine ⟨r₁.2.2, ?_⟩
    split at run
    · have ⟨same, closing⟩ := Outcome.done.inj run
      rw [← same, closing]
    · split at run
      · cases run
      · have ⟨same, closing⟩ := Outcome.done.inj run
        rw [← same, closing]
  | halted why t₁ => cases run
  | looping t₁ => cases run

section Answer

variable {buffered : Bool} {n : Nat} {capture : Option Capture} {str : CString} {fuel : Nat}
  {t t' : Talk} {r : Int × Token × Option Capture}

/-- The buffer is one of those the program passes. -/
def Buffer (buffered : Bool) (capture : Option Capture) : Prop :=
  ∀ c ∈ capture, buffered = true ∧ maxLineLength - 1 ≤ c.n

/-- After an answer to CAPABILITY the tag has moved on, unless the client could not be written to. -/
theorem getCapability_answer {first last more : List Byte} {others : List (List Byte)}
    (buffer : Buffer buffered capture) (written : t.serverWrites.headD true = true)
    (stream : t.stream = wire (first :: others) ++ (last ++ lf :: more))
    (answer : CapabilityAnswer buffered (ourTag n) first others last)
    (enough : t.stream.length < fuel)
    (run : (imap4OutGetCapability true imap4OkToken (ourTag n) capture str).run Talk.step fuel t =
      .done r t') (told : ∀ message ∈ t'.log.told, message.2 = true) : r.2.1 = ourTag (n + 1) := by
  have ours := ourTag_ours n
  have fits : LookupFits capture (first :: others) last := by
    refine ⟨fun c given line member => ?_, fun c given => answer.chain (buffer c given).1⟩
    have short := answer.small (buffer c given).1 line member
    have room := (buffer c given).2
    omega
  have room := fits.rest.1
  have left := (asked_stream (ourTag n) stream).2
  have shorter : ((t.asked (ourTag n)).hearLine first).stream.length < fuel := by
    rw [left]
    rw [stream, wire_cons, List.length_append, List.length_append] at enough
    rw [List.length_append]
    omega
  have others_ : UntaggedLines others :=
    fun line member => answer.untagged line (List.mem_cons_of_mem _ member)
  have check := (check_capability first (Capture.keep (Capture.cleared capture) first)).resolve_right
    fun not => not.1 ⟨answer.capability, answer.lists⟩
  have tagged : ¬ UntaggedLine last := ours.tagged answer.awaited
  rw [run_lookup_first ours written stream answer.untagged fits enough, check.2.2,
    if_neg (show ¬ (1 : Int) < 1 by decide), Talk.run_response _ _ _ left others_ answer.whole tagged
      room shorter] at run
  obtain ⟨capture', closing⟩ := lookup_dropped run
  cases passed : ((t.asked (ourTag n)).hearLine first).passLines true others
      (Capture.again (Capture.cleared capture) (Capture.keep (Capture.cleared capture) first)) with
  | done r₁ t₁ =>
    rw [passed] at closing
    cases r₁ with
    | inl kept =>
      have status : ¬ (Talk.lastAnswer (ourTag n) imap4OkToken last kept).status < 0 := by
        cases queue : lineQueue last with
        | nil => exact absurd queue answer.second
        | cons token q =>
          rw [Talk.lastAnswer, if_pos answer.awaited, queue, imap4OutCheck]
          split
          · exact (show ¬ (1 : Int) < 0 by decide)
          · exact (show ¬ (0 : Int) < 0 by decide)
      rw [Outcome.next_done, Outcome.next_done, if_neg status] at closing
      rw [ourTag_succ]
      exact (congrArg (fun value => value.2.1) (Outcome.done.inj closing).1).symm
    | inr failed =>
      rw [Outcome.next_done, Outcome.next_done] at closing
      obtain ⟨content, member⟩ := passLines_untold
        (fun line member => relayed_stale (answer.relayed line member) _) passed
      rw [(Outcome.done.inj closing).2] at member
      have written := told _ member
      cases written
  | halted why t₁ => rw [passed] at closing; cases closing
  | looping t₁ => rw [passed] at closing; cases closing

end Answer

/-! ## Exchanges -/

/-- The tag of a message of the program. -/
theorem commandTag_ours (n : Nat) (text : List Byte) :
    commandTag ((ourTag n).buf ++ space :: text) = ourTag n ∧
      commandText ((ourTag n).buf ++ space :: text) = space :: text := by
  have spaceless : ∀ b ∈ (ourTag n).buf, decide (b ≠ space) = true := by
    intro b member
    have letter := (ourTag_ours n).shape.2 b member
    rw [decide_eq_true_eq]
    rintro rfl
    exact absurd letter (by decide)
  have flag := (ourTag_ours n).flag
  rw [commandTag, commandText, List.takeWhile_append_of_pos spaceless,
    List.dropWhile_append_of_pos spaceless]
  refine ⟨?_, by simp⟩
  rw [← flag]
  simp

/-- Where a run has listened, what was known before is known after it. -/
theorem quiet_triple {α : Type} {exchange : Exchange α} {result : α → Prop} (holds : Log → Prop)
    (quiet : exchange.Obeys (sending fun _ => False) result)
    (lasting : ∀ t t' : Talk, t.Listened t' → holds t.log → holds t'.log) :
    Triple Talk.step (fun t => holds t.log) exchange (fun a t => result a ∧ holds t.log)
      fun t => holds t.log :=
  fun fuel t given => (Talk.run_listened quiet fuel t).mono
    (fun _ t' both => ⟨both.1, lasting t t' both.2 given⟩) fun t' listened => lasting t t' listened given

theorem counted_lasting {buffered : Bool} {more n : Nat} (t t' : Talk) (listened : t.Listened t')
    (counted : Counted buffered more n t.log) : Counted buffered more n t'.log :=
  counted.listened listened

section Exchanges

variable {buffered : Bool} {n more : Nat} {capture : Option Capture} {str : CString}

/-- The answer to CAPABILITY is listened to, and moves the tag on or does not. -/
theorem imap4OutReadCapability_quiet (tag : Token) (capture : Option Capture) (str : CString) :
    (imap4OutReadCapability true imap4OkToken tag capture str >>= fun r => (do
      return (r.1, r.2.1, ← Capture.dropTag r.2.2) : Exchange (Int × Token × Option Capture))).Obeys
      (sending fun _ => False) fun r => r.2.1 = tag ∨ r.2.1 = imap4TagInc tag := by
  have read : (imap4OutReadCapability true imap4OkToken tag capture str).Obeys
      (sending fun _ => False) fun r => r.2.1 = tag ∨ r.2.1 = imap4TagInc tag := by
    refine obeys_then (imap4OutResponse_sending _ _ _ _) fun untagged => ?_
    refine obeys_ite (fun _ => .inl rfl) fun _ => ?_
    refine obeys_then (imap4OutResponse_sending _ _ _ _) fun tagged => ?_
    exact obeys_ite (fun _ => .inl rfl) fun _ => .inr rfl
  exact obeys_bind.mpr (obeys_mono read fun r same => obeys_then (dropTag_sending _) fun _ => same)

/-- CAPABILITY that is not written leaves the tag as it is. -/
theorem run_getCapability_unwritten {t : Talk} {fuel : Nat}
    (unwritten : ¬ t.serverWrites.headD true = true) :
    (imap4OutGetCapability true imap4OkToken (ourTag n) capture str).run Talk.step fuel t =
      (do return (-1, ourTag n, ← Capture.dropTag (Capture.cleared capture)) :
        Exchange (Int × Token × Option Capture)).run Talk.step fuel (t.asked (ourTag n)) := by
  have failed : (t.say (capabilityCommand (ourTag n))).1 = false := by
    rw [← Bool.not_eq_true]
    exact unwritten
  rw [imap4OutGetCapability, run_bind, imap4WriteStr_capability (ourTag_ours n), Talk.run_say, failed,
    Outcome.next_done]
  rfl

/-- The lookup of a capability is a command with the next tag. The tag it returns is the next one if the
command was answered; otherwise the next command may have the same. -/
theorem getCapability_tags (buffer : Buffer buffered capture) :
    Triple Talk.step (fun t => Pending buffered n t.log)
      (imap4OutGetCapability true imap4OkToken (ourTag n) capture str)
      (fun r t => Spoken buffered t.log ∧ ∃ m, r.2.1 = ourTag m ∧ Pending buffered m t.log ∧
        (0 < r.1 → Counted buffered 0 (m + 1) t.log))
      fun t => Spoken buffered t.log := by
  intro fuel t pending
  have ⟨named, text⟩ := commandTag_ours n (bytes "CAPABILITY" ++ crlf)
  have shape : capabilityCommand (ourTag n) =
      (ourTag n).buf ++ space :: (bytes "CAPABILITY" ++ crlf) := by simp [capabilityCommand]
  rw [← shape] at named text
  have alone : isLogin (capabilityCommand (ourTag n)) = false := by
    rw [isLogin, text]
    decide
  have log : (t.asked (ourTag n)).log =
      t.log.say (capabilityCommand (ourTag n)) (t.serverWrites.headD true) := rfl
  by_cases written : t.serverWrites.headD true = true
  · have asked : JustAsked buffered n (t.asked (ourTag n)).log := by
      rw [log, written]
      exact pending.say named alone
    have whole : (imap4OutGetCapability true imap4OkToken (ourTag n) capture str).run Talk.step fuel t =
        (imap4OutReadCapability true imap4OkToken (ourTag n) (Capture.cleared capture) str >>= fun r =>
          (do return (r.1, r.2.1, ← Capture.dropTag r.2.2) :
            Exchange (Int × Token × Option Capture))).run Talk.step fuel (t.asked (ourTag n)) :=
      run_getCapability (ourTag_ours n) written
    have met := Talk.run_listened
      (imap4OutReadCapability_quiet (ourTag n) (Capture.cleared capture) str) fuel (t.asked (ourTag n))
    rw [← whole] at met
    cases run : (imap4OutGetCapability true imap4OkToken (ourTag n) capture str).run Talk.step fuel t with
    | done r t' =>
      rw [run] at met
      have ⟨moved, listened⟩ := met
      have asked' := asked.listened listened
      refine ⟨(asked'.counted (.inl rfl)).spoken, ?_⟩
      rw [← ourTag_succ] at moved
      by_cases answered : t'.log.Kept buffered ∧ t'.log.now.Settled buffered
      · have now : t'.log.now.said = capabilityCommand (ourTag n) := listened.said
        have sent : t'.log.now.sent = true := listened.sent.trans written
        have asks : t'.log.now.Asks := by
          rw [Turn.Asks, now, text]
          rfl
        have ⟨heard, first, others, last, rest, came, answer⟩ := answered.2 sent asks
        rw [now, named] at answer
        have stream : t.stream = wire (first :: others) ++ (last ++ lf :: (rest ++ t'.stream)) := by
          have whole := listened.heard heard
          rw [came] at whole
          have none_ : (t.asked (ourTag n)).log.now.heard = [] := rfl
          have same : (t.asked (ourTag n)).stream = t.stream := rfl
          rw [none_, same, List.nil_append] at whole
          rw [← whole]
          simp
        have tag := getCapability_answer buffer written stream answer
          (show t.stream.length < fuel + (t.stream.length + 1) by omega) (run_more _ _ _ run)
          answered.1.told
        exact ⟨n + 1, tag, fun _ => asked'.counted (.inl rfl), fun _ => asked'.counted (.inr rfl)⟩
      · rcases moved with same | next
        · exact ⟨n, same, fun settled kept => absurd ⟨kept, settled⟩ answered,
            fun _ => asked'.counted (.inl rfl)⟩
        · exact ⟨n + 1, next, fun _ => asked'.counted (.inl rfl), fun _ => asked'.counted (.inr rfl)⟩
    | halted why t' =>
      rw [run] at met
      exact ((asked.listened met).counted (.inl rfl)).spoken
    | looping t' =>
      rw [run] at met
      exact ((asked.listened met).counted (.inl rfl)).spoken
  · have counted : Counted buffered 0 n (t.asked (ourTag n)).log := by
      rw [log, Bool.not_eq_true _ |>.mp written]
      exact pending.fail _
    have quiet : (do return (-1, ourTag n, ← Capture.dropTag (Capture.cleared capture)) :
        Exchange (Int × Token × Option Capture)).Obeys (sending fun _ => False)
        fun r => r.1 = -1 ∧ r.2.1 = ourTag n :=
      obeys_then (dropTag_sending _) fun _ => ⟨rfl, rfl⟩
    rw [run_getCapability_unwritten written]
    refine Outcome.Meets.mono (quiet_triple _ quiet counted_lasting fuel _ counted)
      (fun r t' both => ?_) fun t' stopped => Counted.spoken stopped
    have ⟨⟨failed, same⟩, counted'⟩ := both
    refine ⟨counted'.spoken, n, same, counted'.pending, fun positive => ?_⟩
    rw [failed] at positive
    cases positive

/-- A command with the next tag is written or not. -/
theorem send_tags {text : List Byte}
    (alone : isLogin ((ourTag n).buf ++ space :: text) = false) :
    Triple Talk.step (fun t => Pending buffered n t.log)
      ((send ((ourTag n).buf ++ space :: text)).with .server)
      (fun status t => (status < 0 → Counted buffered 0 n t.log) ∧
        (¬ status < 0 → JustAsked buffered n t.log))
      fun t => Spoken buffered t.log := by
  intro fuel t pending
  rw [Talk.run_say]
  have log : (t.say ((ourTag n).buf ++ space :: text)).2.log =
      t.log.say ((ourTag n).buf ++ space :: text) (t.serverWrites.headD true) := rfl
  have ok : (t.say ((ourTag n).buf ++ space :: text)).1 = t.serverWrites.headD true := rfl
  rw [ok]
  cases written : t.serverWrites.headD true with
  | true =>
    refine ⟨fun negative => absurd negative (by decide), fun _ => ?_⟩
    rw [log, written]
    exact pending.say (commandTag_ours n text).1 alone
  | false =>
    refine ⟨fun _ => ?_, fun positive => absurd (show (-1 : Int) < 0 by decide) positive⟩
    rw [log, written]
    exact pending.fail _

/-- A command without arguments has the next tag. -/
theorem imap4Command_tags {command : String} (noNul : 0 ∉ bytes command)
    (short : (lit command).length ≤ 10)
    (alone : (bytes " LOGIN ").isPrefixOf (space :: (bytes command ++ crlf)) = false) :
    Triple Talk.step (fun t => Pending buffered n t.log)
      ((imap4WriteStr nullFlag (some (ourTag n)) (some (lit command)) none).with .server)
      (fun status t => (status < 0 → Counted buffered 0 n t.log) ∧
        (¬ status < 0 → JustAsked buffered n t.log))
      fun t => Spoken buffered t.log := by
  have six : (ourTag n).len = 6 := (ourTag_ours n).shape.1
  have fits : (ourTag n).len + (lit command).length + 3 < maxLineLength := by
    simp only [maxLineLength]
    omega
  rw [imap4WriteStr_command (ourTag_ours n).noNul fits, content_lit noNul, List.append_assoc,
    List.cons_append]
  refine send_tags ?_
  rw [isLogin, (commandTag_ours n _).2]
  exact alone

/-- The STARTTLS exchange keeps count of the tags. -/
theorem imap4OutStarttls_tags (opt : Options) (compared : Int) :
    Triple Talk.step (fun t => Pending true n t.log) (imap4OutStarttls opt (ourTag n) compared)
      (fun r t => Spoken true t.log ∧ (0 ≤ r.1 → ∃ m, r.2 = ourTag m ∧ Pending true m t.log))
      fun t => Spoken true t.log := by
  have buffer : Buffer true (some ⟨List.replicate maxLineLength 0, maxLineLength⟩) := by
    rintro c ⟨⟩
    exact ⟨rfl, Nat.sub_le ..⟩
  refine triple_bind (getCapability_tags buffer) fun r => ?_
  have ⟨capability, tag, after⟩ := r
  intro fuel t ⟨spoken, m, same, pending, moved⟩
  dsimp only at same pending moved
  subst same
  have kept (status : Int) : Spoken true t.log ∧
      (0 ≤ status → ∃ k, ourTag m = ourTag k ∧ Pending true k t.log) :=
    ⟨spoken, fun _ => ⟨m, rfl, pending⟩⟩
  dsimp only
  rw [run_ite]
  split
  · exact kept compared
  rw [run_ite]
  split
  · rw [run_ite]
    split
    · exact kept 0
    · exact kept protocolSOk
  have asked : Triple Talk.step (fun t => Pending true m t.log) (do
      if (← (imap4WriteStr nullFlag (some (ourTag m)) (some (lit "STARTTLS")) none).with .server) < 0
        then return (compared, ourTag m)
      else
        let response ← imap4OutResponse true (some (ourTag m)) imap4OkToken after
        if response.status < 0 then return (response.status, ourTag m)
        else return ((protocolSOk ||| protocolSStarttls : Nat), imap4TagInc (ourTag m)) :
      Exchange (Int × Token))
      (fun r t => Spoken true t.log ∧ (0 ≤ r.1 → ∃ m, r.2 = ourTag m ∧ Pending true m t.log))
      fun t => Spoken true t.log := by
    refine triple_bind (imap4Command_tags (by decide) (by decide) (by decide)) fun status => ?_
    refine triple_ite (fun negative => triple_pure fun t both => ?_) fun positive => ?_
    · have counted := both.1 negative
      exact ⟨counted.spoken, fun _ => ⟨m, rfl, counted.pending⟩⟩
    · have response : Triple Talk.step (fun t => JustAsked true m t.log) (do
          let response ← imap4OutResponse true (some (ourTag m)) imap4OkToken after
          if response.status < 0 then return (response.status, ourTag m)
          else return ((protocolSOk ||| protocolSStarttls : Nat), imap4TagInc (ourTag m)) :
          Exchange (Int × Token))
          (fun r t => Spoken true t.log ∧ (0 ≤ r.1 → ∃ m, r.2 = ourTag m ∧ Pending true m t.log))
          fun t => Spoken true t.log := by
        refine triple_bind (triple_mono (quiet_triple _ (imap4OutResponse_sending _ _ _ _)
          fun t t' listened asked => asked.listened listened) (fun _ => id) (fun _ _ => And.right)
          fun t asked => (asked.counted (.inl rfl)).spoken) fun response => ?_
        refine triple_ite (fun negative => triple_pure fun t asked => ?_)
          fun positive => triple_pure fun t asked => ?_
        · exact ⟨(asked.counted (.inl rfl)).spoken, fun positive => absurd negative (by
            dsimp only at positive; omega)⟩
        · have counted := asked.counted (m := m + 1) (.inl rfl)
          exact ⟨counted.spoken, fun _ => ⟨m + 1, (ourTag_succ m).symm, counted.pending⟩⟩
      exact triple_mono response (fun t both => both.2 positive) (fun _ _ => id) fun _ => id
  exact asked fuel t pending

/-- `imap4_out_setup` keeps count of the tags. -/
theorem imap4OutSetup_tags (opt : Options) (platform : Platform)
    (buffer : opt.sslMode.has sslModeTlsOutgoing → buffered = true) :
    Triple Talk.step (fun t => Counted buffered 0 n t.log) (imap4OutSetup opt platform (ourTag n))
      (fun r t => Spoken buffered t.log ∧ (0 ≤ r.1 → ∃ m, r.2 = ourTag m ∧ Pending buffered m t.log))
      fun t => Spoken buffered t.log := by
  have kept (status : Int) : Triple Talk.step (fun t => Counted buffered 0 n t.log)
      (pure (status, ourTag n) : Exchange (Int × Token))
      (fun r t => Spoken buffered t.log ∧ (0 ≤ r.1 → ∃ m, r.2 = ourTag m ∧ Pending buffered m t.log))
      fun t => Spoken buffered t.log :=
    triple_pure fun t counted => ⟨counted.spoken, fun _ => ⟨n, rfl, counted.pending⟩⟩
  refine triple_bind (triple_mono (quiet_triple _ (imap4OutResponse_sending _ _ _ _) counted_lasting)
    (fun _ => id) (fun _ _ => And.right) fun _ => Counted.spoken) fun response => ?_
  refine triple_ite (fun _ => kept _) fun _ => ?_
  split
  · exact fun _ _ counted => counted.spoken
  · split
    · exact fun _ _ counted => counted.spoken
    · exact kept _
    · refine triple_ite (fun _ => kept 0) fun _ => triple_ite (fun _ => kept _) fun outgoing => ?_
      have all := buffer (by simpa using outgoing)
      subst all
      exact triple_mono (imap4OutStarttls_tags opt _) (fun _ => Counted.pending) (fun _ _ => id)
        fun _ => id

/-- `quit` keeps count of the tags. -/
theorem quit_tags : Triple Talk.step (fun t => Pending buffered n t.log)
    (Protocol.imap4.quit (ourTag n))
    (fun tag t => ∃ m, tag = ourTag m ∧ Counted buffered 0 m t.log) fun t => Spoken buffered t.log := by
  have question : Triple Talk.step (fun t => Pending buffered n t.log)
      ((Protocol.imap4.writeStr nullFlag (some (ourTag n)) (some Protocol.imap4.quitString) none).with
        .server)
      (fun status t => (status < 0 → Counted buffered 0 n t.log) ∧
        (¬ status < 0 → JustAsked buffered n t.log)) fun t => Spoken buffered t.log :=
    imap4Command_tags (by decide) (by decide) (by decide)
  refine triple_bind question fun status => triple_ite (fun negative => ?_) fun positive => ?_
  · exact triple_pure fun t both => ⟨n, rfl, both.1 negative⟩
  · have answer : Triple Talk.step (fun t => JustAsked buffered n t.log)
        (Protocol.imap4.outResponse (ourTag n) ⟨(Protocol.imap4.type .ok).content, tokenDontCare⟩)
        (fun _ t => JustAsked buffered n t.log) fun t => Spoken buffered t.log :=
      triple_mono (quiet_triple _ (imap4OutResponse_sending _ _ _ _)
        fun t t' listened asked => asked.listened listened) (fun _ => id) (fun _ _ => And.right)
        fun t asked => (asked.counted (.inl rfl)).spoken
    refine triple_mono (triple_bind answer fun _ => triple_pure fun t asked => ?_)
      (fun t both => both.2 positive) (fun _ _ => id) fun _ => id
    exact ⟨n + 1, (ourTag_succ n).symm, asked.counted (.inl rfl)⟩

/-- What `str_vwrite` sends begins as the text does. -/
theorem strVwriteSends_begins {flag : Flag} {nargs : Nat} {fmt : CString} {text stale : List Byte}
    {content : List Byte} (slow : strVwriteFast flag nargs = false)
    (sends : strVwriteSends flag nargs fmt (some text) stale = .message content) :
    text.take maxText <+: content := by
  have count : fmtArgs fmt.content = nargs := by
    by_contra other
    rw [strVwriteSends, strVwriteBuf_refused slow (.inl other)] at sends
    cases sends
  have begins (body : Nat) (long : text.length ≤ body) (rest : List Byte) :
      text.take maxText <+: (text.take maxText ++ [0]).take body ++ rest := by
    have front : text.take maxText <+: (text.take maxText ++ [0]).take body := by
      have whole : (text.take maxText).take body = text.take maxText := by
        apply List.take_of_length_le
        rw [List.length_take]
        omega
      rw [List.take_append, whole]
      exact List.prefix_append ..
    exact front.trans (List.prefix_append ..)
  rw [strVwriteSends, strVwriteBuf_slow text slow count] at sends
  dsimp only at sends
  split at sends
  · split at sends
    · cases sends
    · rw [← Relay.message.inj sends, List.append_assoc]
      exact begins _ le_rfl _
  · split at sends
    · cases sends
    · rw [← Relay.message.inj sends, List.append_assoc]
      exact begins _ le_rfl _

/-- LOGIN has the tag, however many digits the length of the user name has. -/
theorem loginMessage_begins {user : CString} {stale content : List Byte}
    (message : loginMessage (ourTag n) user stale = .message content) :
    commandTag content = ourTag n ∧ isLogin content = true := by
  have ours := ourTag_ours n
  have six : (ourTag n).buf.length = 6 := ours.shape.1
  let front := (ourTag n).buf ++ space :: (bytes "LOGIN" ++ [space])
  have line : imap4FmtLine nullFlag (some (ourTag n)) (some (lit "LOGIN")) (some (lit "\x7b%d\x7d")) =
      front ++ (bytes "\x7b%d\x7d" ++ crlf) := by
    have given : (lit "\x7b%d\x7d").isEmpty = false := by decide
    have name : (lit "LOGIN").content = bytes "LOGIN" := content_lit (by decide)
    have count : (lit "\x7b%d\x7d").content = bytes "\x7b%d\x7d" := content_lit (by decide)
    simp [imap4FmtLine, nullFlag_end, given, name, count, front]
  have plain : Plain front := ours.plain.append (by decide)
  have noNul : 0 ∉ front ++ (bytes "\x7b%d\x7d" ++ crlf) := by
    have clean := ours.noNul
    rw [List.mem_append, not_or]
    refine ⟨?_, by decide⟩
    rw [List.mem_append, not_or]
    exact ⟨clean, by decide⟩
  have small : (front ++ (bytes "\x7b%d\x7d" ++ crlf)).length < maxLineLength := by
    rw [List.length_append, List.length_append, six]
    decide
  obtain ⟨rest, expanded⟩ : ∃ rest, vformat (bytes "\x7b%d\x7d" ++ crlf) [.nat user.length] = some rest := by
    change ∃ rest, vformat [123, 37, 100, 125, 13, 10] [.nat user.length] = some rest
    simp [vformat]
  rw [loginMessage, imap4WriteSends, imap4WriteFmt] at message
  simp only [Option.isNone_some, Bool.false_and, Bool.false_eq_true, if_false, line, small, if_true,
    cstr_content noNul, vformat_plain_append plain, expanded, Option.map_some] at message
  have short : front.length ≤ maxText := by
    rw [List.length_append, six]
    decide
  obtain ⟨tail, whole⟩ := (List.prefix_take_iff.mpr ⟨List.prefix_append front rest, short⟩).trans
    (strVwriteSends_begins (by decide) message)
  have shape : content = (ourTag n).buf ++ space :: (bytes "LOGIN" ++ space :: tail) := by
    rw [← whole]
    simp [front]
  obtain ⟨named, text⟩ := commandTag_ours n (bytes "LOGIN" ++ space :: tail)
  rw [shape, isLogin, text]
  exact ⟨named, rfl⟩

/-- A message that belongs to a command. -/
theorem spoken_tags (relay : Relay) {t : Talk} (counted : Counted buffered (more + 1) n t.log) :
    (t.spoken relay).Meets (fun status t' => Spoken buffered t'.log ∧
      (¬ status < 0 → Counted buffered more n t'.log)) fun t' => Spoken buffered t'.log := by
  cases relay with
  | fault why => exact counted.spoken
  | refused => exact ⟨counted.spoken, fun sent => absurd (show (-1 : Int) < 0 by decide) sent⟩
  | message content =>
    have said : Counted buffered more n (t.say content).2.log := counted.say content _
    exact ⟨said.spoken, fun _ => said⟩

/-- An answer keeps the count. -/
theorem answerIn_tags (tag : Token) (capture : Option Capture) (fuel : Nat) {t : Talk}
    (counted : Counted buffered more n t.log) :
    (answerIn tag capture fuel t).Meets (fun _ t' => Counted buffered more n t'.log)
      fun t' => Spoken buffered t'.log :=
  (quiet_triple _ (imap4OutResponse_sending true (some tag) imap4OkToken capture) counted_lasting fuel t
    counted).mono (fun _ _ => And.right) fun _ => Counted.spoken

/-- LOGIN and its two literals are one command. -/
theorem imap4OutLogin_tags (user passwd : CString) (first now : Option Capture) :
    Triple Talk.step (fun t => Spoken buffered t.log ∧ Pending buffered n t.log)
      (imap4OutLogin (ourTag n) user passwd first now)
      (fun r t => Spoken buffered t.log ∧ (0 ≤ r.1 → Counted buffered 0 (n + 1) t.log))
      fun t => Spoken buffered t.log := by
  rintro fuel t ⟨spoken, pending⟩
  rw [run_login]
  have login : (t.spoken (loginMessage (ourTag n) user t.stale)).Meets
      (fun status t' => Spoken buffered t'.log ∧
        (¬ status < 0 → Counted buffered 2 (n + 1) t'.log)) fun t' => Spoken buffered t'.log := by
    cases message : loginMessage (ourTag n) user t.stale with
    | fault why => exact spoken
    | refused => exact ⟨spoken, fun sent => absurd (show (-1 : Int) < 0 by decide) sent⟩
    | message content =>
      obtain ⟨named, login⟩ := loginMessage_begins message
      have log : (t.say content).2.log = t.log.say content (t.serverWrites.headD true) := rfl
      have ok : (t.say content).1 = t.serverWrites.headD true := rfl
      rw [Talk.spoken, ok]
      cases written : t.serverWrites.headD true with
      | true =>
        have counted := pending.sayLogin named login
        rw [← written, ← log] at counted
        exact ⟨counted.spoken, fun _ => counted⟩
      | false =>
        have counted := pending.fail content
        rw [← written, ← log] at counted
        exact ⟨counted.spoken, fun sent => absurd (show (-1 : Int) < 0 by decide) sent⟩
  have failed {t : Talk} (capture : Option Capture) (spoken : Spoken buffered t.log) :
      (Outcome.done ((-1 : Int), capture) t : Outcome Talk Stop (Int × Option Capture)).Meets
        (fun r t => Spoken buffered t.log ∧ (0 ≤ r.1 → Counted buffered 0 (n + 1) t.log))
        fun t => Spoken buffered t.log :=
    ⟨spoken, fun positive => absurd positive (show ¬ (0 : Int) ≤ -1 by decide)⟩
  refine login.next fun status t₁ said => ?_
  obtain ⟨spoken, sent⟩ := said
  split
  · exact failed _ spoken
  refine (answerIn_tags _ _ fuel (sent ‹_›)).next fun r t₂ counted => ?_
  refine (spoken_tags _ counted).next fun status t₃ said => ?_
  obtain ⟨spoken, sent⟩ := said
  split
  · exact failed _ spoken
  refine (answerIn_tags _ _ fuel (sent ‹_›)).next fun r t₄ counted => ?_
  refine (spoken_tags _ counted).next fun status t₅ said => ?_
  obtain ⟨spoken, sent⟩ := said
  split
  · exact failed _ spoken
  refine (answerIn_tags _ _ fuel (sent ‹_›)).next fun r t₆ counted => ?_
  exact ⟨counted.spoken, fun _ => counted⟩

/-- `imap4_out_authenticate` keeps count of the tags. -/
theorem imap4OutAuthenticate_tags (auth : Auth) (buffer : Buffer buffered capture) :
    Triple Talk.step (fun t => Pending buffered n t.log)
      (imap4OutAuthenticate auth (ourTag n) capture)
      (fun r t => Spoken buffered t.log ∧
        (0 ≤ r.status → ∃ m, r.tag = ourTag m ∧ Counted buffered 0 m t.log))
      fun t => Spoken buffered t.log := by
  refine triple_bind (getCapability_tags buffer) fun r => ?_
  have ⟨capability, tag, now⟩ := r
  intro fuel t ⟨spoken, m, same, pending, moved⟩
  dsimp only at same pending moved
  subst same
  -- the tag moves on whatever the status is
  have ended (status : Int) (now : Option Capture) {t : Talk} (spoken : Spoken buffered t.log)
      (counted : 0 ≤ status → Counted buffered 0 (m + 1) t.log) :
      ((do return ⟨status, imap4TagInc (ourTag m), ← Capture.dropTag now⟩ : Exchange OutAuth).run
        Talk.step fuel t).Meets (fun r t => Spoken buffered t.log ∧
          (0 ≤ r.status → ∃ m, r.tag = ourTag m ∧ Counted buffered 0 m t.log))
        fun t => Spoken buffered t.log := by
    have dropped := quiet_triple (fun log => Spoken buffered log ∧
        (0 ≤ status → Counted buffered 0 (m + 1) log)) (dropTag_sending now)
      (fun t t' listened both => ⟨both.1.listened listened, fun positive =>
        (both.2 positive).listened listened⟩) fuel t ⟨spoken, counted⟩
    refine Outcome.Meets.next (dropped.mono (fun _ _ => And.right) fun _ => And.left)
      fun capture t' both => ?_
    exact ⟨both.1, fun positive => ⟨m + 1, (ourTag_succ m).symm, both.2 positive⟩⟩
  dsimp only
  rw [run_ite]
  split
  · exact ended (-1) now spoken fun positive => absurd positive (by decide)
  rw [run_ite]
  split
  · exact ended 2 now spoken fun _ => moved (by omega)
  split
  · refine (imap4OutLogin_tags _ _ capture now fuel t ⟨spoken, pending⟩).next fun r t' both => ?_
    exact ended r.1 r.2 both.1 both.2
  · exact spoken

end Exchanges

end Perdition
