import Perdition.Verif.Captures

/-!
# Answers to messages

What a message to the real server comes to in a talk, and what `imap4_out_response` makes of any
stream.
-/
namespace Perdition

open Lib Program

/-! ## Messages to the real server -/

/-- What `str_vwrite` comes to. -/
def strVwriteSends (flag : Flag) (nargs : Nat) (fmt : CString) (text : Option (List Byte))
    (stale : List Byte) : Relay :=
  match strVwriteBuf flag nargs fmt text with
  | none => .refused
  | some w =>
    if !strVwriteFast flag nargs && !w.inside then .fault .strVwrite
    else
      let body := match w.crlfAt with
        | none => w.count
        | some at_ => at_
      let front := w.placed.take body
      .message (front ++ stale.take (body - front.length) ++ if w.crlfAt.isSome then crlf else [])

/-- What `imap4_write` comes to. -/
def imap4WriteSends (flag : Flag) (tag : Option Token) (command : Option CString) (nargs : Nat)
    (fmt : Option CString) (args : List Arg) (stale : List Byte) : Relay :=
  match imap4WriteFmt flag tag command fmt with
  | none => .fault .imap4WriteFmt
  | some (none, _) => .fault .nullPointer
  | some (some fmt, flag) => strVwriteSends flag nargs fmt (vformat fmt.content args) stale

namespace Talk

/-- The talk after a message to the real server, with the status. -/
def spoken (t : Talk) : Relay → Outcome Talk Stop Int
  | .fault why => .halted (.fault why) t
  | .refused => .done (-1) t
  | .message content => .done (if (t.say content).1 then 0 else -1) (t.say content).2

theorem run_strVwrite_server (flag : Flag) (nargs : Nat) (fmt : CString)
    (text : Option (List Byte)) (fuel : Nat) (t : Talk) :
    (strVwrite flag nargs fmt text).run serverStep fuel t =
      t.spoken (strVwriteSends flag nargs fmt text t.stale) := by
  have write (content : List Byte) : (do
      if ← ioWrite content then return 0 else return -1 : Dialogue Int).run serverStep fuel t =
        t.spoken (.message content) := by
    change ((if (t.say content).1 = true then pure 0 else pure (-1) : Dialogue Int).run
      serverStep fuel (t.say content).2) = _
    simp only [spoken]
    split <;> rfl
  unfold strVwrite strVwriteSends
  cases strVwriteBuf flag nargs fmt text with
  | none => rfl
  | some w =>
    dsimp only
    by_cases beyond : (!strVwriteFast flag nargs && !w.inside) = true
    · rw [if_pos beyond, if_pos beyond]
      rfl
    · rw [if_neg beyond, if_neg beyond]
      obtain ⟨placed, crlfAt, count⟩ := w
      cases crlfAt with
      | none =>
        dsimp only
        by_cases short : (placed.take count).length < count
        · rw [if_pos short]
          exact write _
        · rw [if_neg short, Nat.sub_eq_zero_of_le (Nat.le_of_not_lt short), List.take_zero]
          exact write _
      | some at_ =>
        dsimp only
        by_cases short : (placed.take at_).length < at_
        · rw [if_pos short]
          exact write _
        · rw [if_neg short, Nat.sub_eq_zero_of_le (Nat.le_of_not_lt short), List.take_zero]
          exact write _

/-- A message of IMAP, run in a talk. -/
theorem run_imap4Write (flag : Flag) (tag : Option Token) (command : Option CString) (nargs : Nat)
    (fmt : Option CString) (args : List Arg) (fuel : Nat) (t : Talk) :
    ((imap4Write flag tag command nargs fmt args).with .server).run step fuel t =
      t.spoken (imap4WriteSends flag tag command nargs fmt args t.stale) := by
  rw [run_server, imap4Write, imap4WriteSends]
  cases imap4WriteFmt flag tag command fmt with
  | none => rfl
  | some format =>
    obtain ⟨fmt, flag⟩ := format
    cases fmt with
    | none => rfl
    | some fmt => exact run_strVwrite_server flag nargs fmt _ fuel t

end Talk

/-! ## Talks along a run -/

namespace Talk

/-- No stretch of the stream is as long as the fuel. -/
def Within (fuel : Nat) (t : Talk) : Prop :=
  t.stream.length < fuel ∧ ∀ stream ∈ t.later, stream.length < fuel

theorem step_within {fuel : Nat} (op : DuoSig.Op) (t : Talk) (within : t.Within fuel) :
    (step op t).state.Within fuel := by
  obtain ⟨party, op⟩ := op
  obtain ⟨now, later⟩ := within
  cases op with
  | nextByte =>
    cases party with
    | client => exact ⟨now, later⟩
    | server =>
      cases stream : t.stream with
      | nil =>
        simp only [step, nextByte, stream, Outcome.state]
        cases rest : t.later with
        | nil => exact ⟨by simpa using Nat.zero_lt_of_lt now, by simp⟩
        | cons next others =>
          rw [rest] at later
          exact ⟨later next (by simp), fun s member => later s (List.mem_cons_of_mem _ member)⟩
      | cons b rest =>
        simp only [step, nextByte, stream, Outcome.state]
        rw [stream, List.length_cons] at now
        exact ⟨Nat.lt_of_succ_lt now, later⟩
  | write content => cases party <;> exact ⟨now, later⟩
  | getType => cases party <;> exact ⟨now, later⟩
  | stale count => cases party <;> exact ⟨now, later⟩
  | fault why => cases party <;> exact ⟨now, later⟩

theorem run_within {α : Type} (exchange : Exchange α) (fuel : Nat) {t : Talk} {bound : Nat}
    (within : t.Within bound) : (exchange.run step fuel t).state.Within bound :=
  run_invariant exchange step_within fuel t within

/-- Nothing was said to the real server in between. -/
structure Unsaid (t t' : Talk) : Prop where
  /-- The messages before the last one. -/
  past : t'.log.past = t.log.past
  /-- The last message. -/
  said : t'.log.now.said = t.log.now.said
  /-- Whether it was written. -/
  sent : t'.log.now.sent = t.log.now.sent
  /-- Which writes succeed. -/
  writes : t'.serverWrites = t.serverWrites
  /-- The old bytes of the write buffer. -/
  stale : t'.stale = t.stale

theorem Unsaid.refl (t : Talk) : t.Unsaid t := ⟨rfl, rfl, rfl, rfl, rfl⟩

/-- The real server was listened to, and was said nothing. What was heard came from the stream, unless a
read failed. -/
structure Listened (t t' : Talk) : Prop extends t.Unsaid t' where
  /-- The client was told more. -/
  told : t.log.told <+: t'.log.told
  /-- What was heard. -/
  heard : t'.log.now.silent = false →
    t'.log.now.heard ++ t'.stream = t.log.now.heard ++ t.stream

theorem Listened.refl (t : Talk) : t.Listened t := ⟨.refl t, List.prefix_rfl, fun _ => rfl⟩

/-- An exchange that sends the real server nothing listens to it. -/
theorem run_listened {α : Type} {exchange : Exchange α} {result : α → Prop}
    (quiet : exchange.Obeys (sending fun _ => False) result) (fuel : Nat) (t : Talk) :
    (exchange.run step fuel t).Meets (fun a t' => result a ∧ t.Listened t') fun t' =>
      t.Listened t' := by
  have kept : Triple step (fun t' => t.Listened t') exchange
      (fun a t' => result a ∧ t.Listened t') fun t' => t.Listened t' := by
    refine triple_of_obeys quiet (fun op allowed t' listened => ?_) fun _ => id
    obtain ⟨party, op⟩ := op
    cases op with
    | nextByte =>
      cases party with
      | client => exact allowed.elim
      | server =>
        obtain ⟨⟨past, said, sent, writes, stale⟩, told, heard⟩ := listened
        cases stream : t'.stream with
        | nil =>
          simp only [step, nextByte, stream]
          exact ⟨trivial, ⟨past, said, sent, writes, stale⟩, told,
            fun silent => Bool.noConfusion silent⟩
        | cons b rest =>
          simp only [step, nextByte, stream]
          refine ⟨trivial, ⟨past, said, sent, writes, stale⟩, told, fun silent => ?_⟩
          have before := heard silent
          rw [stream] at before
          simpa [Log.hear] using before
    | write content =>
      cases party with
      | client =>
        obtain ⟨⟨past, said, sent, writes, stale⟩, told, heard⟩ := listened
        exact ⟨trivial, ⟨past, said, sent, writes, stale⟩,
          told.trans (List.prefix_append ..), heard⟩
      | server => exact allowed.elim
    | getType => cases party <;> exact ⟨trivial, listened⟩
    | stale count => cases party <;> exact ⟨trivial, listened⟩
    | fault why => cases party <;> exact listened
  exact kept fuel t (.refl t)

/-- An exchange that sends the real server nothing says nothing to it. -/
theorem run_unsaid {α : Type} {exchange : Exchange α} {result : α → Prop}
    (quiet : exchange.Obeys (sending fun _ => False) result) (fuel : Nat) (t : Talk) :
    t.Unsaid (exchange.run step fuel t).state :=
  Outcome.meets_iff_state.mp ((run_listened quiet fuel t).mono
    (fun _ _ both => both.2.toUnsaid) fun _ listened => listened.toUnsaid)

end Talk

/-! ## Any stream as lines -/

/-- A stream is untagged lines before another line, or before what is no line. -/
theorem untagged_split (stream : List Byte) :
    ∃ lines rest, stream = wire lines ++ rest ∧ UntaggedLines lines ∧
      (lf ∉ rest ∨ ∃ last more, rest = last ++ lf :: more ∧ lf ∉ last ∧ ¬ UntaggedLine last) := by
  induction long : stream.length using Nat.strong_induction_on generalizing stream with
  | _ n ih =>
    by_cases member : lf ∈ stream
    · obtain ⟨line, rest, rfl, whole⟩ := List.eq_append_cons_of_mem member
      by_cases untagged : UntaggedLine line
      · obtain ⟨lines, rest', rfl, others, ended⟩ := ih rest.length (by
          rw [← long, List.length_append, List.length_cons]; omega) rest rfl
        refine ⟨line :: lines, rest', by simp, fun l member => ?_, ended⟩
        rcases List.mem_cons.mp member with rfl | member
        · exact ⟨whole, untagged⟩
        · exact others l member
      · exact ⟨[], line ++ lf :: rest, rfl, by simp [UntaggedLines], .inr ⟨line, rest, rfl, whole,
          untagged⟩⟩
    · exact ⟨[], stream, rfl, by simp [UntaggedLines], .inl member⟩

/-- Lines are told apart by their line feeds. -/
theorem wire_inj {lines lines' : List (List Byte)} (whole : ∀ line ∈ lines, lf ∉ line)
    (whole' : ∀ line ∈ lines', lf ∉ line) (same : wire lines = wire lines') : lines = lines' := by
  induction lines generalizing lines' with
  | nil =>
    cases lines' with
    | nil => rfl
    | cons line' lines' => simp at same
  | cons line lines ih =>
    cases lines' with
    | nil => simp at same
    | cons line' lines' =>
      have first : line = line' := by
        have front (l : List Byte) (rest : List Byte) (clean : lf ∉ l) :
            (l ++ [lf] ++ rest).takeWhile (· ≠ lf) = l := by
          rw [List.append_assoc, List.takeWhile_append_of_pos fun b member => by
            simpa using fun equal : b = lf => clean (equal ▸ member)]
          simp
        have both := congrArg (List.takeWhile (· ≠ lf)) same
        rwa [wire_cons, wire_cons, front _ _ (whole line (by simp)),
          front _ _ (whole' line' (by simp))] at both
      subst first
      rw [wire_cons, wire_cons, List.append_cancel_left_eq] at same
      rw [ih (fun l member => whole l (List.mem_cons_of_mem _ member))
        (fun l member => whole' l (List.mem_cons_of_mem _ member)) same]

/-! ## Any answer -/

namespace Talk

theorem passLines_append (relaying : Bool) (front back : List (List Byte)) :
    ∀ (capture : Option Capture) (t : Talk),
      t.passLines relaying (front ++ back) capture =
        (t.passLines relaying front capture).next fun r t =>
          match r with
          | .inl capture => t.passLines relaying back capture
          | .inr r => .done (.inr r) t := by
  induction front with
  | nil => exact fun _ _ => rfl
  | cons line front ih =>
    intro capture t
    rw [List.cons_append, passLines, passLines]
    cases (t.hearLine line).passOn relaying (lineTag line) (lineQueue line)
        (Capture.keep capture line) with
    | done r t' =>
      cases r with
      | inl capture' => exact ih capture' t'
      | inr r => rfl
    | halted why t' => rfl
    | looping t' => rfl

end Talk

/-- Where not all lines are relayed there is a first one that is not. -/
theorem not_allRelayed {stale : List Byte} {lines : List (List Byte)} :
    ∀ {writes : List Bool}, ¬ AllRelayed stale lines writes →
      ∃ front line back, lines = front ++ line :: back ∧ AllRelayed stale front writes ∧
        ¬ (Relayed stale line ∧ (writes.drop front.length).headD true = true) := by
  induction lines with
  | nil => exact fun stopped => absurd trivial stopped
  | cons line lines ih =>
    intro writes stopped
    by_cases first : Relayed stale line ∧ writes.headD true = true
    · obtain ⟨front, line', back, rfl, relayed, not⟩ := ih fun rest => stopped ⟨first.1, first.2, rest⟩
      refine ⟨line :: front, line', back, rfl, ⟨first.1, first.2, relayed⟩, ?_⟩
      rwa [List.length_cons, ← List.drop_tail]
    · exact ⟨[], line, lines, rfl, trivial, first⟩

/-- What a response comes to that relays lines to the client and has no buffer. -/
inductive Answered (tag desired : Token) (t : Talk) : Outcome Talk Stop Response → Prop where
  /-- The untagged lines are relayed, and the next line is the answer. -/
  | answer {lines : List (List Byte)} {last more : List Byte}
    (stream : t.stream = wire lines ++ (last ++ lf :: more)) (untagged : UntaggedLines lines)
    (whole : lf ∉ last) (tagged : ¬ UntaggedLine last)
    (relayed : AllRelayed t.stale lines t.clientWrites) :
    Answered tag desired t
      (.done (Talk.lastAnswer tag desired last none) ((t.passed true lines).hearLine last))
  /-- The untagged lines are relayed, and no line follows. -/
  | starved {lines : List (List Byte)} {rest : List Byte} (stream : t.stream = wire lines ++ rest)
    (untagged : UntaggedLines lines) (unended : lf ∉ rest)
    (relayed : AllRelayed t.stale lines t.clientWrites) :
    Answered tag desired t (.done ⟨-1, [], none⟩ (t.passed true lines).starved)
  /-- A line cannot be relayed. -/
  | stopped {front : List (List Byte)} {line rest : List Byte} {t' : Talk}
    (stream : t.stream = wire (front ++ [line]) ++ rest) (untagged : UntaggedLines (front ++ [line]))
    (heard : t'.log.now = (t.log.hear (wire (front ++ [line]))).now) (left : t'.stream = rest) :
    Answered tag desired t (.done ⟨-1, [], none⟩ t')
  /-- Relaying a line uses memory outside an object. -/
  | faulted {front : List (List Byte)} {line rest : List Byte} {why : Fault} {t' : Talk}
    (stream : t.stream = wire (front ++ [line]) ++ rest) (untagged : UntaggedLines (front ++ [line]))
    (relayed : AllRelayed t.stale front t.clientWrites)
    (fault : relayOf t.stale line = .fault why) : Answered tag desired t (.halted (.fault why) t')

/-- Untagged lines that are not all relayed end a response. -/
theorem passLines_stopped {t : Talk} {lines : List (List Byte)} {rest : List Byte}
    (stream : t.stream = wire lines ++ rest) (untagged : UntaggedLines lines)
    (stopped : ¬ AllRelayed t.stale lines t.clientWrites) (tag desired : Token) :
    (∃ r t', t.passLines true lines none = .done (.inr r) t' ∧ Answered tag desired t (.done r t')) ∨
      ∃ why t', t.passLines true lines none = .halted why t' ∧
        Answered tag desired t (.halted why t') := by
  obtain ⟨front, line, back, rfl, relayed, not⟩ := not_allRelayed stopped
  have passed : t.passLines true front none = .done (.inl (Talk.keepAll none front))
      (t.passed true front) := (Talk.passLines_iff true).mpr ⟨fun _ => relayed, rfl, rfl⟩
  have shape : t.stream = wire (front ++ [line]) ++ (wire back ++ rest) := by
    rw [stream, wire_append, wire_append]
    simp
  have untagged' : UntaggedLines (front ++ [line]) :=
    fun l member => untagged l (by simp at member ⊢; tauto)
  rw [Talk.passLines_append, passed, Outcome.next_done]
  dsimp only
  rw [keepAll_none, Talk.passLines, Talk.passOn, if_pos rfl]
  have same : relay ((t.passed true front).hearLine line).stale (lineTag line) (lineQueue line) =
    relayOf t.stale line := rfl
  rw [same]
  have heard : ((t.passed true front).hearLine line).log.now =
      (t.log.hear (wire (front ++ [line]))).now := by
    simp [Talk.passed, Talk.hearLine, Log.hear, wire_append]
  have left : ((t.passed true front).hearLine line).stream = wire back ++ rest := by
    have before : (t.passed true front).stream = line ++ lf :: (wire back ++ rest) := by
      simp [Talk.passed, shape, wire_append]
    exact Talk.hearLine_stream before
  cases relay_ : relayOf t.stale line with
  | fault why =>
    exact .inr ⟨_, _, rfl, .faulted shape untagged' relayed relay_⟩
  | refused =>
    exact .inl ⟨_, _, rfl, .stopped shape untagged' heard left⟩
  | message content =>
    have failed : (((t.passed true front).hearLine line).tell content).1 = false := by
      rw [← Bool.not_eq_true]
      intro ok
      refine not ⟨?_, ok⟩
      rw [Relayed, relayBytes, relay_]
    simp only [Talk.relayed, failed, Bool.false_eq_true, if_false, Outcome.next_done]
    exact .inl ⟨_, _, rfl, .stopped shape untagged' heard left⟩

/-- The untagged lines of an answer come first. -/
theorem run_response_front (tag desired : Token) {fuel : Nat} {capture : Option Capture} {t : Talk}
    {lines : List (List Byte)} {rest : List Byte} (stream : t.stream = wire lines ++ rest)
    (untagged : UntaggedLines lines) (fits : FitAll capture lines)
    (enough : t.stream.length < fuel) :
    ∃ rounds, 0 < rounds ∧
      (imap4OutResponse true (some tag) desired capture).run Talk.step fuel t =
        (t.passLines true lines capture).next fun r t =>
          match r with
          | .inl capture => iterate (fun capture t =>
              (imap4OutResponseRound true (some tag) desired capture).run Talk.step fuel t)
              rounds capture t
          | .inr r => .done r t := by
  have turns : lines.length < fuel := by
    have counted := wire_count fun l member => (untagged l member).1
    have lengths : lines.length ≤ (wire lines).length := counted ▸ List.count_le_length
    rw [stream, List.length_append] at enough
    omega
  refine ⟨fuel - lines.length, by omega, ?_⟩
  have rounds := Talk.run_response_lines true tag desired untagged rest (fuel - lines.length) capture
    t stream enough fits
  rw [Nat.add_sub_of_le (Nat.le_of_lt turns)] at rounds
  rw [imap4OutResponse, run_loop]
  exact rounds

/-- Every answer is one of these. -/
theorem run_response_answered (tag desired : Token) {fuel : Nat} {t : Talk}
    (enough : t.stream.length < fuel) :
    Answered tag desired t
      ((imap4OutResponse true (some tag) desired none).run Talk.step fuel t) := by
  obtain ⟨lines, rest, stream, untagged, ended⟩ := untagged_split t.stream
  by_cases relayed : AllRelayed t.stale lines t.clientWrites
  · rcases ended with unended | ⟨last, more, rfl, whole, tagged⟩
    · obtain ⟨rounds, positive, run⟩ := run_response_front tag desired stream untagged
        (fitAll_none _) enough
      obtain ⟨rounds, rfl⟩ : ∃ k, rounds = k + 1 := ⟨rounds - 1, by omega⟩
      have passed : t.passLines true lines none =
          .done (.inl (Talk.keepAll none lines)) (t.passed true lines) :=
        (Talk.passLines_iff true).mpr ⟨fun _ => relayed, rfl, rfl⟩
      have left : (t.passed true lines).stream = rest := by simp [Talk.passed, stream]
      have shorter : (t.passed true lines).stream.length < fuel := by
        rw [left]
        rw [stream, List.length_append] at enough
        omega
      have open_ : scanInto tokenImap4 0 none (t.passed true lines).stream = none := by
        rw [left, scanInto, scanLine_open lineFlag_imap4 0 unended]
        rfl
      rw [run, passed, Outcome.next_done]
      dsimp only
      rw [keepAll_none, iterate, Talk.run_round _ _ _ _ shorter, Talk.round, open_]
      exact .starved stream untagged unended relayed
    · rw [run_response_relayed stream untagged whole tagged (fitAll_none _) enough fun _ => relayed,
        keepAll_none]
      exact .answer stream untagged whole tagged relayed
  · obtain ⟨rounds, _, run⟩ := run_response_front tag desired stream untagged (fitAll_none _) enough
    rw [run]
    rcases passLines_stopped stream untagged relayed tag desired with
      ⟨r, t', passed, answered⟩ | ⟨why, t', passed, answered⟩
    · rw [passed]
      exact answered
    · rw [passed]
      exact answered

end Perdition
