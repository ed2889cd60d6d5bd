import Perdition.Verif.Capabilities
import Perdition.Verif.Ports

/-!
# A proxy behind a proxy

The real server of one instance of the program may be another instance. What the first does with its
real server and what the second does with its client are then two processes, joined by the streams
of one connection. Where each of them, given the whole of what the other says, says the other half of
one conversation, every order in which the bytes may arrive comes to that conversation.
-/
namespace Perdition

open Lib Program

/-! ## The two sides -/

/-- What the client is told at the end of an attempt: the status, and the line for a success or why
the attempt has failed. -/
def Protocol.verdict (protocol : Protocol) (opt : Options) (refusal : Option CString) :
    CString × CString :=
  match refusal with
  | none => (protocol.type .ok, opt.okLine)
  | some reason => (protocol.type .no, lit "failed: " ++ reason)

/-- What follows `in_get_auth`: the client is told what has become of its credentials. -/
def Protocol.answers (protocol : Protocol) (opt : Options) (refusal : Auth → Option CString)
    (result : InAuth) : Dialogue (Option InAuth) :=
  match result.auth with
  | none => return some result
  | some auth => do
    let verdict := protocol.verdict opt (refusal auth)
    let _ ← protocol.writeStr nullFlag result.tag (some verdict.1) (some verdict.2)
    return some result

/-- Credentials are answered by one reply. -/
theorem Protocol.answers_credentials (protocol : Protocol) {opt : Options}
    {refusal : Auth → Option CString} {result : InAuth} {auth : Auth} {verdict : CString × CString}
    (given : result.auth = some auth) (decides : protocol.verdict opt (refusal auth) = verdict) :
    protocol.answers opt refusal result =
      protocol.writeStr nullFlag result.tag (some verdict.1) (some verdict.2) >>= fun _ =>
        pure (some result) := by
  rw [answers, given, ← decides]

/-- A first attempt as the client sees it: the greeting, `in_get_auth`, and the answer. -/
def Protocol.serves (protocol : Protocol) (opt : Options) (platform : Platform)
    (refusal : Auth → Option CString) : Dialogue (Option InAuth) := do
  if (← protocol.greeting opt platform) < 0 then return none
  else
    let result ← protocol.inGetAuth opt platform opt.sslMode sslModeEmpty
    protocol.answers opt refusal result

/-- The end of an attempt as the real server sees it, where it is not asked for TLS: `out_setup`, and
`out_authenticate` where that succeeds. -/
def Protocol.logsIn (protocol : Protocol) (opt : Options) (platform : Platform) (auth : Auth)
    (tag : Token) (capture : Option Capture) : Exchange (Option OutAuth) := do
  let (status, tag) ← protocol.outSetup opt platform tag
  if status ≤ 0 then return none
  else
    let saslMech : Nat := status.toNat &&& protocolSSaslPlain
    return some (← protocol.outAuthenticate platform sslModeEmpty auth saslMech tag capture)

/-! ## Conversations -/

/-- Bytes that are read. -/
def heard (content : List Byte) : List (Byte ⊕ Byte) := content.map .inl

/-- Bytes that are written. -/
def said (content : List Byte) : List (Byte ⊕ Byte) := content.map .inr

@[simp] theorem heardIn_heard' (content : List Byte) : heardIn (heard content) = content :=
  heardIn_heard content

@[simp] theorem heardIn_said' (content : List Byte) : heardIn (said content) = [] :=
  heardIn_said content

@[simp] theorem saidIn_heard' (content : List Byte) : saidIn (heard content) = [] :=
  saidIn_heard content

@[simp] theorem saidIn_said' (content : List Byte) : saidIn (said content) = content :=
  saidIn_said content

@[simp] theorem mirrored_heard (content : List Byte) : mirrored (heard content) = said content := by
  simp [mirrored, heard, said, Function.comp_def]

@[simp] theorem mirrored_said (content : List Byte) : mirrored (said content) = heard content := by
  simp [mirrored, heard, said, Function.comp_def]

/-- A talk in which this was heard and said, no read found the end, and this is left. -/
structure Talk.Passed (t : Talk) (history : List (Byte ⊕ Byte)) (rest : List Byte) : Prop where
  /-- What was heard and said. -/
  history : turnsBytes t.log.turns = history
  /-- What is left. -/
  stream : t.stream = rest
  /-- No read found the end. -/
  live : t.log.turns.any Turn.silent = false
  /-- Writes succeed. -/
  writes : t.serverWrites = []

section Passed

variable {t : Talk} {history : List (Byte ⊕ Byte)} {rest : List Byte}

theorem Talk.passed_arrived (stream : List Byte) (type : Party → IoType) (stale : List Byte) :
    (Talk.arrived stream type stale).Passed [] stream := ⟨rfl, rfl, rfl, rfl⟩

/-- A message is written. -/
theorem Talk.Passed.say (passed : t.Passed history rest) (content : List Byte) :
    (t.say content).1 = true ∧ (t.say content).2.Passed (history ++ said content) rest := by
  refine ⟨by simp [Talk.say, passed.writes], ?_, passed.stream, ?_, ?_⟩
  · rw [Talk.say, turnsBytes_say, passed.live, passed.history]
    rfl
  · simpa [Talk.say, Log.say, Log.turns] using passed.live
  · simp [Talk.say, passed.writes]

/-- A line is read. -/
theorem Talk.Passed.hearLine {line : List Byte} (passed : t.Passed history (line ++ lf :: rest)) :
    (t.hearLine line).Passed (history ++ heard (line ++ [lf])) rest := by
  have quiet := passed.live
  rw [Log.turns, List.any_cons, Bool.or_eq_false_iff] at quiet
  refine ⟨?_, Talk.hearLine_stream passed.stream, ?_, passed.writes⟩
  · rw [Talk.hearLine, turnsBytes_hear, quiet.2, passed.history]
    rfl
  · simpa [Talk.hearLine, Log.hear, Log.turns] using quiet

end Passed

/-- An exchange returns a value after this was heard and said more. -/
def Exchange.Comes {α : Type} (exchange : Exchange α) (fuel : Nat) (history : List (Byte ⊕ Byte))
    (rest : List Byte) (value : α) (history' : List (Byte ⊕ Byte)) (rest' : List Byte) : Prop :=
  ∀ t : Talk, t.Passed history rest →
    ∃ t', exchange.run Talk.step fuel t = .done value t' ∧ t'.Passed history' rest'

section Comes

variable {α β : Type} {fuel : Nat} {history history' history'' : List (Byte ⊕ Byte)}
  {rest rest' rest'' : List Byte}

theorem comes_pure (value : α) :
    (pure value : Exchange α).Comes fuel history rest value history rest :=
  fun t passed => ⟨t, rfl, passed⟩

theorem comes_bind {first : Exchange β} {next : β → Exchange α} {b : β} {a : α}
    (begun : first.Comes fuel history rest b history' rest')
    (finish : (next b).Comes fuel history' rest' a history'' rest'') :
    (first >>= next).Comes fuel history rest a history'' rest'' := by
  intro t passed
  obtain ⟨t', run, passed'⟩ := begun t passed
  obtain ⟨t'', run', passed''⟩ := finish t' passed'
  exact ⟨t'', by rw [run_bind, run, Outcome.next_done, run'], passed''⟩

/-- A message that is sent. -/
theorem comes_send (content : List Byte) :
    ((send content).with .server).Comes fuel history rest 0 (history ++ said content) rest := by
  intro t passed
  obtain ⟨ok, after⟩ := passed.say content
  refine ⟨_, ?_, after⟩
  rw [Talk.run_say, ok]
  rfl

/-- A line that is read. -/
theorem comes_readLine {flag : Flag} (lines : LineFlag flag) {capture : Option Capture}
    {line : List Byte} (whole : lf ∉ line) (fits : Fits capture line)
    (enough : (line ++ lf :: rest).length < fuel) :
    ((readLineInto capture flag 0).with .server).Comes fuel history (line ++ lf :: rest)
      (some (lineTokens (words (flag.has tokenImap4) line), Capture.keep capture line))
      (history ++ heard (line ++ [lf])) rest := by
  intro t passed
  have advance : t.advance rest = t.hearLine line := by
    have front : t.stream = (line ++ [lf]) ++ rest := by
      rw [passed.stream, List.append_assoc, List.singleton_append]
    rw [Talk.advance_append front, Talk.hearLine, front, List.drop_left' (by simp)]
  refine ⟨t.hearLine line, ?_, passed.hearLine⟩
  rw [Talk.run_readLineInto lines 0 capture (passed.stream ▸ enough), passed.stream,
    scanInto_line lines 0 rest whole fits, Option.map_some, Talk.after, advance]

/-- A line that is read without a buffer. -/
theorem comes_line {flag : Flag} (lines : LineFlag flag) {line : List Byte} (whole : lf ∉ line)
    (enough : (line ++ lf :: rest).length < fuel) :
    ((readLine none flag 0).with .server).Comes fuel history (line ++ lf :: rest)
      (some (lineTokens (words (flag.has tokenImap4) line), []))
      (history ++ heard (line ++ [lf])) rest := by
  intro t passed
  have advance : t.advance rest = t.hearLine line := by
    have front : t.stream = (line ++ [lf]) ++ rest := by
      rw [passed.stream, List.append_assoc, List.singleton_append]
    rw [Talk.advance_append front, Talk.hearLine, front, List.drop_left' (by simp)]
  refine ⟨t.hearLine line, ?_, passed.hearLine⟩
  rw [Talk.run_readLine lines 0 (passed.stream ▸ enough), passed.stream,
    scanLine_line lines 0 rest whole, Option.map_some, Talk.after, advance]

/-- The iterations of a loop return a value after this was heard and said more. -/
def LoopComes (body : β → Exchange (β ⊕ α)) (fuel rounds : Nat) (start : β)
    (history : List (Byte ⊕ Byte)) (rest : List Byte) (value : α) (history' : List (Byte ⊕ Byte))
    (rest' : List Byte) : Prop :=
  ∀ t : Talk, t.Passed history rest → ∃ t',
    iterate (fun at_ t => (body at_).run Talk.step fuel t) rounds start t = .done value t' ∧
      t'.Passed history' rest'

theorem comes_loop {body : β → Exchange (β ⊕ α)} {start : β} {a : α}
    (rounds : LoopComes body fuel fuel start history rest a history' rest') :
    Exchange.Comes (.loop body start) fuel history rest a history' rest' := rounds

/-- A loop goes on. -/
theorem comes_again {body : β → Exchange (β ⊕ α)} {start again : β} {a : α} {rounds : Nat}
    (begun : (body start).Comes fuel history rest (.inl again) history' rest')
    (later : LoopComes body fuel rounds again history' rest' a history'' rest'') :
    LoopComes body fuel (rounds + 1) start history rest a history'' rest'' := by
  intro t passed
  obtain ⟨t', run, passed'⟩ := begun t passed
  obtain ⟨t'', run', passed''⟩ := later t' passed'
  exact ⟨t'', by rw [iterate, run, Outcome.next_done]; exact run', passed''⟩

/-- A loop returns. -/
theorem comes_last {body : β → Exchange (β ⊕ α)} {start : β} {a : α} {rounds : Nat}
    (begun : (body start).Comes fuel history rest (.inr a) history' rest') :
    LoopComes body fuel (rounds + 1) start history rest a history' rest' := by
  intro t passed
  obtain ⟨t', run, passed'⟩ := begun t passed
  exact ⟨t', by rw [iterate, run, Outcome.next_done], passed'⟩

end Comes

/-! ## Chains -/

/-- Two exchanges, joined by their connection, have this conversation, and return these values in
it. -/
structure Chained {α β : Type} (first : Exchange α) (second : Exchange β) (fuel : Nat)
    (history : List (Byte ⊕ Byte)) (a : α) (b : β) : Prop where
  /-- Whatever the types and the write buffers, every order of deliveries comes to it. -/
  converses : ∀ type type' stale stale',
    Converses (first.process fuel type stale) (second.process fuel type' stale') history
  /-- The first returns. -/
  first : ∀ type stale, ∃ p,
    first.run Port.step fuel ((Port.fresh type stale).feed (heardIn history)) = .done a p
  /-- The second returns. -/
  second : ∀ type stale, ∃ p,
    second.run Port.step fuel ((Port.fresh type stale).feed (saidIn history)) = .done b p

/-- Two exchanges that come to the parts of one conversation are chained by it. -/
theorem chained_of_comes {α β : Type} {first : Exchange α} {second : Exchange β} {fuel : Nat}
    {history ours theirs : List (Byte ⊕ Byte)} {a : α} {b : β} {rest rest' : List Byte}
    (one : first.Comes fuel [] (heardIn history) a ours rest) (part : Recites ours history)
    (two : second.Comes fuel [] (saidIn history) b theirs rest')
    (part' : Recites theirs (mirrored history)) :
    Chained first second fuel history a b := by
  have one' (type : Party → IoType) (stale : List Byte) :
      (first.process fuel type stale).history (heardIn history) = ours ∧ ∃ p,
        first.run Port.step fuel ((Port.fresh type stale).feed (heardIn history)) = .done a p := by
    obtain ⟨t', run, passed⟩ := one _ (Talk.passed_arrived _ type stale)
    have both := Exchange.process_talk run
    rwa [passed.history] at both
  have two' (type : Party → IoType) (stale : List Byte) :
      (second.process fuel type stale).history (saidIn history) = theirs ∧ ∃ p,
        second.run Port.step fuel ((Port.fresh type stale).feed (saidIn history)) = .done b p := by
    obtain ⟨t', run, passed⟩ := two _ (Talk.passed_arrived _ type stale)
    have both := Exchange.process_talk run
    rwa [passed.history] at both
  exact {
    converses := fun type type' stale stale' =>
      converses_of_recites ((one' type stale).1.symm ▸ part) ((two' type' stale').1.symm ▸ part')
    first := fun type stale => (one' type stale).2
    second := fun type stale => (two' type stale).2 }

end Perdition
