import Perdition.Verif.Answers
import Perdition.Verif.Capabilities

/-!
# The handshake of LOGIN

`imap4_out_authenticate` announces the user name and the password as literals, and reads the answers
without looking at them. It waits for a continuation before it sends what it announced exactly where the
real server sends one.
-/
namespace Perdition

open Lib Program

/-! ## What is kept -/

/-- The answer to a message is a continuation, after untagged lines if any. -/
def Turn.Continued (turn : Turn) : Prop :=
  turn.silent = false ∧ ∃ lines plus, turn.heard = wire lines ++ (plus ++ [lf]) ∧
    UntaggedLines lines ∧ lf ∉ plus ∧ (lineTag plus).buf = bytes "+"

/-- The answer to a message is OK with this tag, after untagged lines if any. -/
def Turn.Accepted (turn : Turn) (tag : Token) : Prop :=
  turn.silent = false ∧ ∃ lines last, turn.heard = wire lines ++ (last ++ [lf]) ∧
    UntaggedLines lines ∧ TaggedOk tag last

/-- Messages in the order they were sent. The first is none, the second asks for the capabilities, the
third is LOGIN and announces the user name, the fourth is the user name and announces the password, and
the fifth is the password. -/
structure HandshakeKept (turns : List Turn) : Prop where
  /-- The user name is sent after a continuation only. -/
  user : ∀ login ∈ turns[2]?, 3 < turns.length → login.Continued
  /-- So is the password. -/
  passwd : ∀ user ∈ turns[3]?, 4 < turns.length → user.Continued

/-- However `imap4_out_authenticate` ends, it has kept the handshake. It reports success only where all
was sent, and, without a buffer, only where the server accepted the login. -/
def HandshakeHeld (auth : Auth) (tag : Token) (capture : Option Capture) (fuel : Nat) (w : World) :
    Prop :=
  ∃ t', ((imap4OutAuthenticate auth tag capture).run exchangeStep fuel w).state.Talks
      w.trace.length t' ∧
    HandshakeKept t'.log.turns.reverse ∧
    ∀ r w', (imap4OutAuthenticate auth tag capture).run exchangeStep fuel w = .done r w' →
      r.status = 1 → t'.log.turns.length = 5 ∧ (capture = none →
        t'.log.now.Accepted tag ∨ t'.log.now.Accepted (imap4TagInc tag))

/-! ## The messages -/

/-- LOGIN with the user name announced. -/
def loginMessage (tag : Token) (user : CString) (stale : List Byte) : Relay :=
  imap4WriteSends nullFlag (some tag) (some (lit "LOGIN")) 1 (some (lit "\x7b%d\x7d"))
    [.nat user.length] stale

/-- The user name with the password announced. -/
def userMessage (user passwd : CString) (stale : List Byte) : Relay :=
  imap4WriteSends nullFlag none none 2 (some (lit "%s \x7b%d\x7d")) [.str user, .nat passwd.length]
    stale

/-- The password. -/
def passwdMessage (passwd : CString) (stale : List Byte) : Relay :=
  imap4WriteSends nullFlag none none 1 (some (lit "%s")) [.str passwd] stale

/-- A message is sent. -/
def Relay.Sent (r : Relay) : Prop := ∃ content, r = .message content

/-! ## The condition -/

/-- The next line that is not untagged is a continuation, which leaves this buffer and this talk. -/
inductive LiteralAccepted (capture : Option Capture) (t : Talk) : Option Capture → Talk → Prop where
  | intro {lines : List (List Byte)} {plus rest : List Byte}
    (stream : t.stream = wire lines ++ (plus ++ lf :: rest)) (untagged : UntaggedLines lines)
    (whole : lf ∉ plus) (plus_ : (lineTag plus).buf = bytes "+")
    (relayed : AllRelayed t.stale lines t.clientWrites)
    (fits : FitAll capture (lines ++ [plus])) :
    LiteralAccepted capture t (Talk.keepAll capture (lines ++ [plus]))
      ((t.passed true lines).hearLine plus)

/-- Relaying one of the untagged lines that come next uses memory outside an object. -/
def RelayFaults (capture : Option Capture) (t : Talk) : Prop :=
  ∃ front line rest why, t.stream = wire (front ++ [line]) ++ rest ∧
    UntaggedLines (front ++ [line]) ∧ AllRelayed t.stale front t.clientWrites ∧
    relayOf t.stale line = .fault why ∧ FitAll capture (front ++ [line])

/-- The literals that LOGIN announces in this talk are accepted, as far as they are announced and what
they announce can be sent. -/
def LoginContinues (tag : Token) (user passwd : CString) (first now : Option Capture) (t : Talk) :
    Prop :=
  ∀ login, loginMessage tag user t.stale = .message login → t.serverWrites.headD true = true →
    (userMessage user passwd t.stale).Sent →
      RelayFaults (Capture.again first now) (t.say login).2 ∨
      ∃ kept t₂, LiteralAccepted (Capture.again first now) (t.say login).2 kept t₂ ∧
        ∀ name, userMessage user passwd t₂.stale = .message name →
          t₂.serverWrites.headD true = true → (passwdMessage passwd t₂.stale).Sent →
            RelayFaults (Capture.again first kept) (t₂.say name).2 ∨
            ∃ kept' t₃, LiteralAccepted (Capture.again first kept) (t₂.say name).2 kept' t₃

/-- Where no LOGINDISABLED is found, the literals of LOGIN are accepted. -/
def HandshakeWorks (auth : Auth) (tag : Token) (capture : Option Capture) (fuel : Nat) (t : Talk) :
    Prop :=
  ∀ tag' now t₁ user passwd,
    (imap4OutGetCapability true imap4OkToken tag capture (lit "LOGINDISABLED")).run Talk.step fuel
      t = .done (0, tag', now) t₁ →
    auth.authenticationId = some user → auth.passwd = some passwd →
    LoginContinues tag' user passwd capture now t₁

/-! ## A literal and its answer -/

section Literal

variable {tag desired : Token} {capture kept : Option Capture} {fuel : Nat} {t t₂ : Talk}

/-- `+` is not `*`. -/
theorem continuation_tagged {plus : List Byte} (same : (lineTag plus).buf = bytes "+") :
    ¬ UntaggedLine plus := by
  rw [← isUntagged_iff, isUntagged, same]
  decide

/-- After a continuation the talk is as expected, and the message was continued. -/
theorem LiteralAccepted.run (accepted : LiteralAccepted capture t kept t₂)
    (enough : t.stream.length < fuel) :
    ∃ r, (imap4OutResponse true (some tag) desired capture).run Talk.step fuel t = .done r t₂ ∧
      r.capture = kept := by
  cases accepted with
  | intro stream untagged whole plus_ relayed fits =>
    refine ⟨_, run_response_relayed stream untagged whole (continuation_tagged plus_) fits enough
      fun _ => relayed, ?_⟩
    rw [lastAnswer_eq, Talk.keepAll, Talk.keepAll, List.foldl_append]
    rfl

theorem LiteralAccepted.continued (accepted : LiteralAccepted capture t kept t₂)
    (fresh : t.log.now.heard = [] ∧ t.log.now.silent = false) : t₂.log.now.Continued := by
  cases accepted with
  | @intro lines plus rest stream untagged whole plus_ relayed fits =>
    refine ⟨fresh.2, lines, plus, ?_, untagged, whole, plus_⟩
    simp [Talk.passed, Talk.hearLine, Log.hear, fresh.1]

/-- Where relaying faults, the response does not return. -/
theorem RelayFaults.run (faults : RelayFaults capture t) (enough : t.stream.length < fuel) :
    ∃ why t', (imap4OutResponse true (some tag) desired capture).run Talk.step fuel t =
      .halted why t' := by
  obtain ⟨front, line, rest, why, stream, untagged, relayed, fault_, fits⟩ := faults
  obtain ⟨rounds, _, run⟩ := run_response_front tag desired stream untagged fits enough
  have passed : t.passLines true front capture =
      .done (.inl (Talk.keepAll capture front)) (t.passed true front) :=
    (Talk.passLines_iff true).mpr ⟨fun _ => relayed, rfl, rfl⟩
  have same : relay ((t.passed true front).hearLine line).stale (lineTag line) (lineQueue line) =
      .fault why := fault_
  rw [run, Talk.passLines_append, passed, Outcome.next_done]
  dsimp only
  rw [Talk.passLines, Talk.passOn, if_pos rfl, same]
  exact ⟨_, _, rfl⟩

/-- Lines end with this line. -/
theorem wire_last (lines : List (List Byte)) {lines' : List (List Byte)} {last last' : List Byte}
    (whole : ∀ line ∈ lines ++ [last], lf ∉ line) (whole' : ∀ line ∈ lines', lf ∉ line)
    (whole'' : lf ∉ last') (same : wire (lines ++ [last]) = wire lines' ++ (last' ++ [lf])) :
    last = last' := by
  have shape : wire lines' ++ (last' ++ [lf]) = wire (lines' ++ [last']) := by
    rw [wire_append]
    simp
  have lists := wire_inj whole (fun line member => by
    rcases List.mem_append.mp member with inside | final
    · exact whole' line inside
    · rw [List.mem_singleton.mp final]; exact whole'') (same.trans shape)
  exact (List.append_inj' lists rfl).2 |> List.head_eq_of_cons_eq

/-- Without a buffer, an answer that is a continuation is the next line that is not untagged. -/
theorem continued_of_response (enough : t.stream.length < fuel)
    (fresh : t.log.now.heard = [] ∧ t.log.now.silent = false) {r : Response}
    (run : (imap4OutResponse true (some tag) desired none).run Talk.step fuel t = .done r t₂)
    (continued : t₂.log.now.Continued) :
    ∃ kept, LiteralAccepted none t kept t₂ := by
  obtain ⟨silent, lines', plus, heard, untagged', whole', plus_⟩ := continued
  have answered := run_response_answered tag desired enough
  rw [run] at answered
  cases answered with
  | @answer lines last more stream untagged whole tagged relayed =>
    have same : last = plus := by
      refine wire_last lines (fun line member => ?_)
        (fun line member => (untagged' line member).1) whole' ?_
      · rcases List.mem_append.mp member with inside | final
        · exact (untagged line inside).1
        · rw [List.mem_singleton.mp final]; exact whole
      · rw [← heard, wire_append]
        simp [Talk.passed, Talk.hearLine, Log.hear, fresh.1]
    subst same
    exact ⟨_, .intro stream untagged whole plus_ relayed (fitAll_none _)⟩
  | starved => simp [Talk.starved, Log.starve] at silent
  | @stopped front line rest t' stream untagged now left =>
    have same : line = plus := by
      refine wire_last front (fun l member => (untagged l member).1)
        (fun l member => (untagged' l member).1) whole' ?_
      rw [← heard, now]
      simp [Log.hear, fresh.1]
    exact absurd (same ▸ (untagged line (by simp)).2) (continuation_tagged plus_)

/-- Without a buffer, a response that does not return faults. -/
theorem faults_of_response (enough : t.stream.length < fuel)
    (stops : ∀ r t', (imap4OutResponse true (some tag) desired none).run Talk.step fuel t ≠ .done r t') :
    RelayFaults none t := by
  have answered := run_response_answered tag desired enough
  generalize (imap4OutResponse true (some tag) desired none).run Talk.step fuel t = outcome at *
  cases answered with
  | answer => exact absurd rfl (stops _ _)
  | starved => exact absurd rfl (stops _ _)
  | stopped => exact absurd rfl (stops _ _)
  | faulted stream untagged relayed fault_ =>
    exact ⟨_, _, _, _, stream, untagged, relayed, fault_, fitAll_none _⟩

end Literal

/-! ## The LOGIN command -/

theorem handshakeKept_short {turns : List Turn} (short : turns.length ≤ 3) : HandshakeKept turns :=
  ⟨fun _ _ more => absurd more (by omega), fun _ _ more => absurd more (by omega)⟩

theorem handshakeKept_four (opening capabilities login user : Turn) :
    HandshakeKept [opening, capabilities, login, user] ↔ login.Continued := by
  constructor
  · exact fun kept => kept.user login rfl (by simp)
  · exact fun continued => ⟨fun _ same _ => Option.some.inj same ▸ continued,
      fun _ _ more => absurd more (by simp)⟩

theorem handshakeKept_five (opening capabilities login user passwd : Turn) :
    HandshakeKept [opening, capabilities, login, user, passwd] ↔
      login.Continued ∧ user.Continued := by
  constructor
  · exact fun kept => ⟨kept.user login rfl (by simp), kept.passwd user rfl (by simp)⟩
  · exact fun both => ⟨fun _ same _ => Option.some.inj same ▸ both.1,
      fun _ same _ => Option.some.inj same ▸ both.2⟩

section Login

variable (tag : Token) (user passwd : CString) (first now : Option Capture) (fuel : Nat)

/-- The response after a message, in a talk. -/
abbrev answerIn (tag : Token) (capture : Option Capture) (fuel : Nat) (t : Talk) :
    Outcome Talk Stop Response :=
  (imap4OutResponse true (some tag) imap4OkToken capture).run Talk.step fuel t

/-- The LOGIN command in a talk. -/
theorem run_login (t : Talk) :
    (imap4OutLogin tag user passwd first now).run Talk.step fuel t =
      (t.spoken (loginMessage tag user t.stale)).next fun written t =>
        if written < 0 then .done (-1, now) t
        else (answerIn imap4ContToken (Capture.again first now) fuel t).next fun r t =>
          (t.spoken (userMessage user passwd t.stale)).next fun written t =>
            if written < 0 then .done (-1, r.capture) t
            else (answerIn imap4ContToken (Capture.again first r.capture) fuel t).next fun r t =>
              (t.spoken (passwdMessage passwd t.stale)).next fun written t =>
                if written < 0 then .done (-1, r.capture) t
                else (answerIn tag (Capture.again first r.capture) fuel t).next fun r t =>
                  .done (r.status, r.capture) t := by
  rw [imap4OutLogin, run_bind, Talk.run_imap4Write]
  congr 1
  funext written t
  rw [run_ite]
  split
  · rfl
  rw [run_bind]
  congr 1
  funext r t
  rw [run_bind, Talk.run_imap4Write]
  congr 1
  funext written t
  rw [run_ite]
  split
  · rfl
  rw [run_bind]
  congr 1
  funext r t
  rw [imap4WriteStr, run_bind, Talk.run_imap4Write]
  congr 1
  funext written t
  rw [run_ite]
  split
  · rfl
  · rw [run_bind]
    rfl

/-- The answers that LOGIN gets before it sends more are continuations. -/
def LoginKept (t : Talk) : Prop :=
  ∀ login, loginMessage tag user t.stale = .message login → t.serverWrites.headD true = true →
    (userMessage user passwd t.stale).Sent →
    ∀ r t₁, answerIn imap4ContToken (Capture.again first now) fuel (t.say login).2 = .done r t₁ →
      t₁.log.now.Continued ∧
      ∀ name, userMessage user passwd t₁.stale = .message name →
        t₁.serverWrites.headD true = true → (passwdMessage passwd t₁.stale).Sent →
        ∀ r' t₂, answerIn imap4ContToken (Capture.again first r.capture) fuel (t₁.say name).2 =
          .done r' t₂ → t₂.log.now.Continued

end Login

/-- What is said in an answer is what was said before it. -/
theorem answerIn_unsaid (tag : Token) (capture : Option Capture) (fuel : Nat) (t : Talk) :
    t.Unsaid (answerIn tag capture fuel t).state :=
  Talk.run_unsaid (imap4OutResponse_sending _ _ _ _) fuel t

/-- A message is sent before what follows. -/
theorem Talk.spoken_next {α : Type} (relay : Relay) (t : Talk) (failed : α)
    (rest : Talk → Outcome Talk Stop α) :
    (t.spoken relay).next (fun written t => if written < 0 then .done failed t else rest t) =
      match relay with
      | .fault why => .halted (.fault why) t
      | .refused => .done failed t
      | .message content =>
        if t.serverWrites.headD true then rest (t.say content).2
        else .done failed (t.say content).2 := by
  cases relay with
  | fault why => rfl
  | refused => rfl
  | message content =>
    have ok : (t.say content).1 = t.serverWrites.headD true := rfl
    simp only [spoken, Outcome.next_done, ok]
    split <;> rfl

/-- A message that is not sent ends what follows, and leaves the talk as it is. -/
theorem Talk.spoken_unsent {α : Type} {relay : Relay} (unsent : ¬ relay.Sent) (t : Talk)
    (failed : α) (rest : Talk → Outcome Talk Stop α) :
    ((t.spoken relay).next fun written t =>
      if written < 0 then .done failed t else rest t).state = t := by
  rw [spoken_next]
  cases relay with
  | fault why => rfl
  | refused => rfl
  | message content => exact absurd ⟨content, rfl⟩ unsent

/-- What is kept after the password was sent or could not be. -/
theorem passwd_kept {α : Type} (tag : Token) (relay : Relay) (failed : α)
    (rest : Response → α) (capture : Option Capture) (fuel : Nat) {t : Talk}
    {opening capabilities login : Turn} (past : t.log.past = [login, capabilities, opening]) :
    HandshakeKept (((t.spoken relay).next fun written t =>
        if written < 0 then .done failed t
        else (answerIn tag capture fuel t).next fun r t => .done (rest r) t).state.log.turns.reverse) ↔
      login.Continued ∧ (relay.Sent → t.log.now.Continued) := by
  by_cases sent : relay.Sent
  swap
  · rw [Talk.spoken_unsent sent]
    have turns : t.log.turns.reverse = [opening, capabilities, login, t.log.now] := by
      simp [Log.turns, past]
    rw [turns, handshakeKept_four]
    exact ⟨fun continued => ⟨continued, fun given => absurd given sent⟩, And.left⟩
  obtain ⟨content, rfl⟩ := sent
  rw [Talk.spoken_next]
  dsimp only
  have five (t' : Talk) (unsaid : (t.say content).2.Unsaid t') :
      HandshakeKept t'.log.turns.reverse ↔
        login.Continued ∧ (Relay.Sent (.message content) → t.log.now.Continued) := by
    have turns : t'.log.turns.reverse =
        [opening, capabilities, login, t.log.now, t'.log.now] := by
      simp [Log.turns, unsaid.past, Talk.say, Log.say, past]
    rw [turns, handshakeKept_five]
    exact ⟨fun both => ⟨both.1, fun _ => both.2⟩, fun both => ⟨both.1, both.2 ⟨content, rfl⟩⟩⟩
  split
  · have unsaid := answerIn_unsaid tag capture fuel (t.say content).2
    cases answered : answerIn tag capture fuel (t.say content).2 with
    | done r t' =>
      rw [answered] at unsaid
      exact five t' unsaid
    | halted why t' =>
      rw [answered] at unsaid
      exact five t' unsaid
    | looping t' =>
      rw [answered] at unsaid
      exact five t' unsaid
  · exact five _ (.refl _)

/-- What is kept after the user name was sent or could not be. -/
theorem user_kept (tag : Token) (user passwd : CString) (first kept : Option Capture) (fuel : Nat)
    {t : Talk} {opening capabilities : Turn} (past : t.log.past = [capabilities, opening]) :
    HandshakeKept (((t.spoken (userMessage user passwd t.stale)).next fun written t =>
        if written < 0 then .done (-1, kept) t
        else (answerIn imap4ContToken (Capture.again first kept) fuel t).next fun r t =>
          (t.spoken (passwdMessage passwd t.stale)).next fun written t =>
            if written < 0 then .done (-1, r.capture) t
            else (answerIn tag (Capture.again first r.capture) fuel t).next fun r t =>
              .done ((r.status, r.capture) : Int × Option Capture) t).state.log.turns.reverse) ↔
      ((userMessage user passwd t.stale).Sent → t.log.now.Continued ∧
        ∀ name, userMessage user passwd t.stale = .message name →
          t.serverWrites.headD true = true → (passwdMessage passwd t.stale).Sent →
          ∀ r t₂, answerIn imap4ContToken (Capture.again first kept) fuel (t.say name).2 =
            .done r t₂ → t₂.log.now.Continued) := by
  by_cases sent : (userMessage user passwd t.stale).Sent
  swap
  · rw [Talk.spoken_unsent sent]
    exact iff_of_true (handshakeKept_short (by simp [Log.turns, past])) fun given => absurd given sent
  obtain ⟨name, message⟩ := sent
  rw [message, Talk.spoken_next]
  dsimp only
  have four (t' : Talk) (unsaid : (t.say name).2.Unsaid t') :
      HandshakeKept t'.log.turns.reverse ↔ t.log.now.Continued := by
    have turns : t'.log.turns.reverse = [opening, capabilities, t.log.now, t'.log.now] := by
      simp [Log.turns, unsaid.past, Talk.say, Log.say, past]
    rw [turns, handshakeKept_four]
  by_cases ok : t.serverWrites.headD true = true
  swap
  · rw [if_neg ok]
    exact (four _ (.refl _)).trans
      ⟨fun continued _ => ⟨continued, fun _ _ written => absurd written ok⟩,
        fun given => (given ⟨name, rfl⟩).1⟩
  rw [if_pos ok]
  have unsaid := answerIn_unsaid imap4ContToken (Capture.again first kept) fuel (t.say name).2
  cases answered : answerIn imap4ContToken (Capture.again first kept) fuel (t.say name).2 with
  | done r t₂ =>
    rw [answered] at unsaid
    have unsaid : (t.say name).2.Unsaid t₂ := unsaid
    rw [Outcome.next_done]
    have past₂ : t₂.log.past = [t.log.now, capabilities, opening] := by
      rw [unsaid.past]
      simp [Talk.say, Log.say, past]
    have stale : t₂.stale = t.stale := unsaid.stale
    rw [passwd_kept tag _ _ (fun r => (r.status, r.capture)) _ fuel past₂, stale]
    constructor
    · rintro ⟨continued, given⟩ _
      refine ⟨continued, fun name' same _ sent r' t' answered' => ?_⟩
      rw [← Relay.message.inj same, answered] at answered'
      rw [← (Outcome.done.inj answered').2]
      exact given sent
    · intro given
      obtain ⟨continued, rest⟩ := given ⟨name, rfl⟩
      exact ⟨continued, fun sent => rest name rfl ok sent r t₂ answered⟩
  | halted why t₂ =>
    rw [answered] at unsaid
    refine (four _ unsaid).trans ⟨fun continued _ => ⟨continued, fun name' same _ _ r t' run => ?_⟩,
      fun given => (given ⟨name, rfl⟩).1⟩
    rw [← Relay.message.inj same, answered] at run
    cases run
  | looping t₂ =>
    rw [answered] at unsaid
    refine (four _ unsaid).trans ⟨fun continued _ => ⟨continued, fun name' same _ _ r t' run => ?_⟩,
      fun given => (given ⟨name, rfl⟩).1⟩
    rw [← Relay.message.inj same, answered] at run
    cases run

/-- What is kept when LOGIN ends. -/
theorem login_kept (tag : Token) (user passwd : CString) (first now : Option Capture) (fuel : Nat)
    {t : Talk} (begun : t.log.past.length = 1) :
    HandshakeKept
        ((imap4OutLogin tag user passwd first now).run Talk.step fuel t).state.log.turns.reverse ↔
      LoginKept tag user passwd first now fuel t := by
  obtain ⟨opening, past⟩ := List.length_eq_one_iff.mp begun
  rw [run_login]
  by_cases sent : (loginMessage tag user t.stale).Sent
  swap
  · rw [Talk.spoken_unsent sent]
    exact iff_of_true (handshakeKept_short (by simp [Log.turns, past]))
      fun login message => absurd ⟨login, message⟩ sent
  obtain ⟨login, message⟩ := sent
  rw [message, Talk.spoken_next]
  dsimp only
  have three (t' : Talk) (unsaid : (t.say login).2.Unsaid t') :
      HandshakeKept t'.log.turns.reverse :=
    handshakeKept_short (by simp [Log.turns, unsaid.past, Talk.say, Log.say, past])
  by_cases ok : t.serverWrites.headD true = true
  swap
  · rw [if_neg ok]
    exact iff_of_true (three _ (.refl _)) fun _ _ written => absurd written ok
  rw [if_pos ok]
  have unsaid := answerIn_unsaid imap4ContToken (Capture.again first now) fuel (t.say login).2
  have other (stops : ∀ r t₁, answerIn imap4ContToken (Capture.again first now) fuel
      (t.say login).2 ≠ .done r t₁) : LoginKept tag user passwd first now fuel t := by
    intro login' same _ _ r t₁ run
    rw [← Relay.message.inj (message.symm.trans same)] at run
    exact absurd run (stops r t₁)
  cases answered : answerIn imap4ContToken (Capture.again first now) fuel (t.say login).2 with
  | done r t₁ =>
    rw [answered] at unsaid
    have unsaid : (t.say login).2.Unsaid t₁ := unsaid
    have past₁ : t₁.log.past = [t.log.now, opening] := by
      rw [unsaid.past]
      simp [Talk.say, Log.say, past]
    have stale : t₁.stale = t.stale := unsaid.stale
    rw [Outcome.next_done, user_kept tag user passwd first r.capture fuel past₁]
    constructor
    · intro given login' same _ sent r' t' run
      rw [← Relay.message.inj (message.symm.trans same), answered] at run
      obtain ⟨rfl, rfl⟩ := Outcome.done.inj run
      exact given (by rw [stale]; exact sent)
    · intro given sent
      rw [stale] at sent
      exact given login message ok sent r t₁ answered
  | halted why t₁ =>
    rw [answered] at unsaid
    exact iff_of_true (three _ unsaid) (other fun _ _ run => by rw [answered] at run; cases run)
  | looping t₁ =>
    rw [answered] at unsaid
    exact iff_of_true (three _ unsaid) (other fun _ _ run => by rw [answered] at run; cases run)

/-! ## The condition of LOGIN -/

section Condition

variable {tag : Token} {user passwd : CString} {first now capture : Option Capture} {fuel : Nat}
  {t : Talk}

/-- The talk after an answer has no longer stretches of its stream. -/
theorem answerIn_within {r : Response} {t' : Talk} (within : t.Within fuel)
    (answered : answerIn tag capture fuel t = .done r t') : t'.Within fuel := by
  have kept := Talk.run_within (imap4OutResponse true (some tag) imap4OkToken capture) fuel within
  change (answerIn tag capture fuel t).state.Within fuel at kept
  rwa [answered] at kept

/-- An answer to a literal that is accepted or whose relaying faults is a continuation where it
returns. -/
theorem literal_continued {content : List Byte} (rest : Option Capture → Talk → Prop)
    (within : t.Within fuel)
    (condition : RelayFaults capture (t.say content).2 ∨
      ∃ kept t₂, LiteralAccepted capture (t.say content).2 kept t₂ ∧ rest kept t₂)
    {r : Response} {t₁ : Talk}
    (answered : answerIn imap4ContToken capture fuel (t.say content).2 = .done r t₁) :
    t₁.log.now.Continued ∧ rest r.capture t₁ := by
  have enough : (t.say content).2.stream.length < fuel := within.1
  rcases condition with faults | ⟨kept, t₂, accepted, others⟩
  · have halts : ∃ why t', answerIn imap4ContToken capture fuel (t.say content).2 = .halted why t' :=
      faults.run enough
    obtain ⟨why, t', run⟩ := halts
    rw [run] at answered
    cases answered
  · have returns : ∃ r, answerIn imap4ContToken capture fuel (t.say content).2 = .done r t₂ ∧
        r.capture = kept := accepted.run enough
    obtain ⟨r', run, same⟩ := returns
    rw [run] at answered
    obtain ⟨rfl, rfl⟩ := Outcome.done.inj answered
    exact ⟨accepted.continued ⟨rfl, rfl⟩, same ▸ others⟩

/-- Without a buffer, an answer to a literal that is a continuation wherever it returns is accepted, or
its relaying faults. -/
theorem literal_condition {content : List Byte} (rest : Option Capture → Talk → Prop)
    (within : t.Within fuel)
    (continued : ∀ r t₁, answerIn imap4ContToken none fuel (t.say content).2 = .done r t₁ →
      t₁.log.now.Continued ∧ (r.capture = none → rest none t₁)) :
    RelayFaults none (t.say content).2 ∨
      ∃ kept t₂, LiteralAccepted none (t.say content).2 kept t₂ ∧ rest kept t₂ := by
  have enough : (t.say content).2.stream.length < fuel := within.1
  by_cases returns : ∃ r t₁, answerIn imap4ContToken none fuel (t.say content).2 = .done r t₁
  · obtain ⟨r, t₁, answered⟩ := returns
    obtain ⟨now, others⟩ := continued r t₁ answered
    obtain ⟨kept, accepted⟩ := continued_of_response enough ⟨rfl, rfl⟩ answered now
    have empty : kept = none := by
      cases accepted
      exact keepAll_none _
    subst empty
    have returns : ∃ r, answerIn imap4ContToken none fuel (t.say content).2 = .done r t₁ ∧
        r.capture = none := accepted.run enough
    obtain ⟨r', run, same⟩ := returns
    rw [run] at answered
    rw [(Outcome.done.inj answered).1] at same
    exact .inr ⟨none, t₁, accepted, others same⟩
  · exact .inl (faults_of_response enough fun r t' run => returns ⟨r, t', run⟩)

/-- The literals that are accepted are continued. -/
theorem loginKept_of_continues (within : t.Within fuel)
    (continues : LoginContinues tag user passwd first now t) :
    LoginKept tag user passwd first now fuel t := by
  intro login message ok sent r t₁ answered
  obtain ⟨continued, others⟩ := literal_continued _ within (continues login message ok sent) answered
  refine ⟨continued, fun name message' ok' sent' r' t₂ answered' => ?_⟩
  have within₁ : t₁.Within fuel := answerIn_within (t := (t.say login).2) within answered
  have condition := others name message' ok' sent'
  exact (literal_continued (fun _ _ => True) within₁
    (condition.imp_right fun ⟨kept, t₃, accepted⟩ => ⟨kept, t₃, accepted, trivial⟩) answered').1

/-- Without a buffer, literals that are continued are accepted. -/
theorem continues_of_loginKept (within : t.Within fuel)
    (kept : LoginKept tag user passwd none none fuel t) :
    LoginContinues tag user passwd none none t := by
  intro login message ok sent
  refine literal_condition _ within fun r t₁ answered => ?_
  obtain ⟨continued, others⟩ := kept login message ok sent r t₁ answered
  refine ⟨continued, fun none_ name message' ok' sent' => ?_⟩
  have within₁ : t₁.Within fuel := answerIn_within (t := (t.say login).2) within answered
  have condition := literal_condition (fun _ _ => True) within₁
    fun r' t₂ answered' => ⟨others name message' ok' sent' r' t₂ (by rw [none_]; exact answered'),
      fun _ => trivial⟩
  exact condition.imp_right fun ⟨kept, t₃, accepted, _⟩ => ⟨kept, t₃, accepted⟩

/-- Without a buffer, an answer that is the one desired is OK with the tag. -/
theorem accepted_of_answer {content : List Byte} (within : t.Within fuel) {r : Response} {t₁ : Talk}
    (answered : answerIn tag none fuel (t.say content).2 = .done r t₁) (okay : r.status = 1) :
    t₁.log.now.Accepted tag := by
  have enough : (t.say content).2.stream.length < fuel := within.1
  have any := run_response_answered tag imap4OkToken enough
  rw [answerIn] at answered
  rw [answered] at any
  cases any with
  | @answer lines last more stream untagged whole tagged relayed =>
    refine ⟨rfl, lines, last, by simp [Talk.passed, Talk.hearLine, Log.hear, Talk.say, Log.say],
      untagged, whole, ?_, ?_⟩
    · by_contra other
      simp [Talk.lastAnswer, other] at okay
    · by_cases awaited : tokenCmp tag (lineTag last) = true
      swap
      · simp [Talk.lastAnswer, awaited] at okay
      cases queue : lineQueue last with
      | nil => simp [Talk.lastAnswer, awaited, imap4OutCheck, queue] at okay
      | cons token q =>
        refine ⟨token, q, rfl, ?_⟩
        by_contra other
        simp [Talk.lastAnswer, awaited, imap4OutCheck, queue, other] at okay
  | starved => simp at okay
  | stopped => simp at okay

/-- A stage that does not fail sends its message and gets an answer. -/
theorem stage_success {α : Type} {relay : Relay} {failed value : α} {t' : Talk}
    {rest : Response → Talk → Outcome Talk Stop α}
    (run : ((t.spoken relay).next fun written t =>
      if written < 0 then .done failed t else (answerIn tag capture fuel t).next rest) =
        .done value t') (other : value ≠ failed) :
    ∃ content r t₁, relay = .message content ∧
      answerIn tag capture fuel (t.say content).2 = .done r t₁ ∧ rest r t₁ = .done value t' := by
  rw [Talk.spoken_next] at run
  cases relay with
  | fault why => cases run
  | refused => exact absurd (Outcome.done.inj run).1.symm other
  | message content =>
    dsimp only at run
    split at run
    swap
    · exact absurd (Outcome.done.inj run).1.symm other
    cases answered : answerIn tag capture fuel (t.say content).2 with
    | done r t₁ =>
      rw [answered] at run
      exact ⟨content, r, t₁, rfl, answered, run⟩
    | halted why t₁ => rw [answered] at run; cases run
    | looping t₁ => rw [answered] at run; cases run

/-- Without a buffer none is returned. -/
theorem answerIn_capture (enough : t.stream.length < fuel) {r : Response} {t₁ : Talk}
    (answered : answerIn tag none fuel t = .done r t₁) : r.capture = none := by
  have any := run_response_answered tag imap4OkToken enough
  rw [answerIn] at answered
  rw [answered] at any
  cases any with
  | answer => rw [lastAnswer_eq]; rfl
  | starved => rfl
  | stopped => rfl

/-- LOGIN succeeds only once all was sent, and without a buffer only where it is accepted. -/
theorem login_success (within : t.Within fuel) (begun : t.log.past.length = 1)
    {value : Int × Option Capture} {t' : Talk}
    (run : (imap4OutLogin tag user passwd first now).run Talk.step fuel t = .done value t')
    (success : value.1 = 1) :
    t'.log.turns.length = 5 ∧ (first = none → now = none → t'.log.now.Accepted tag) := by
  have other (kept : Option Capture) : value ≠ (-1, kept) := by
    rintro rfl
    cases success
  rw [run_login] at run
  obtain ⟨login, r, t₁, -, answered, run⟩ := stage_success run (other _)
  obtain ⟨name, r₂, t₂, -, answered₂, run⟩ := stage_success run (other _)
  obtain ⟨word, r₃, t₃, -, answered₃, run⟩ := stage_success run (other _)
  obtain ⟨rfl, rfl⟩ := Outcome.done.inj run
  have within₁ : t₁.Within fuel := answerIn_within (t := (t.say login).2) within answered
  have within₂ : t₂.Within fuel := answerIn_within (t := (t₁.say name).2) within₁ answered₂
  have past (tag : Token) (capture : Option Capture) {t t' : Talk} {r : Response}
      {content : List Byte} (answered : answerIn tag capture fuel (t.say content).2 = .done r t') :
      t'.log.past = t.log.now :: t.log.past := by
    have unsaid := answerIn_unsaid tag capture fuel (t.say content).2
    rw [answered] at unsaid
    exact unsaid.past
  refine ⟨?_, ?_⟩
  · rw [Log.turns, List.length_cons, past _ _ answered₃, List.length_cons, past _ _ answered₂,
      List.length_cons, past _ _ answered, List.length_cons, begun]
  · rintro rfl rfl
    have none₁ : r.capture = none := answerIn_capture (t := (t.say login).2) within.1 answered
    rw [none₁] at answered₂
    have none₂ : r₂.capture = none := answerIn_capture (t := (t₁.say name).2) within₁.1 answered₂
    rw [none₂] at answered₃
    exact accepted_of_answer within₂ answered₃ success

end Condition

/-! ## The lookup before LOGIN -/

/-- Without a buffer a response has none. -/
theorem imap4OutResponse_capture (relay : Bool) (tag : Option Token) (desired : Token) :
    (imap4OutResponse relay tag desired none).Obeys Contract.any fun r => r.capture = none := by
  have check (q : Queue) : (imap4OutCheck desired q none).capture = none := by
    unfold imap4OutCheck
    split
    · rfl
    · split <;> rfl
  refine obeys_loop (fun capture => capture = none) rfl fun capture none_ => ?_
  subst none_
  have line : ((readLineInto none tokenImap4 0).with .server).Obeys Contract.any
      fun r => ∀ q capture, r = some (q, capture) → capture = none := by
    refine obeys_interpret (show Obeys Contract.any _ _ from obeys_bind_any fun r => ?_)
      fun op _ => ⟨trivial, fun _ _ => trivial⟩
    split
    · exact fun _ _ same => by cases same
    · rintro _ _ ⟨⟩
      rfl
  refine obeys_bind.mpr (obeys_mono line fun r given => ?_)
  split
  · exact rfl
  · rename_i q capture
    obtain rfl := given q capture rfl
    split
    · exact rfl
    · refine obeys_ite (fun _ => obeys_ite (fun _ => ?_) fun _ => rfl) fun _ =>
        obeys_ite (fun _ => rfl) fun _ => check _
      exact obeys_bind_any fun _ => obeys_ite (fun _ => rfl) fun _ => rfl
    · exact obeys_ite (fun _ => rfl) fun _ => check _

/-- What the lookup returns: the tag or the next one, and without a buffer none. -/
def LookupReturns (tag : Token) (capture : Option Capture) (r : Int × Token × Option Capture) :
    Prop :=
  (r.2.1 = tag ∨ r.2.1 = imap4TagInc tag) ∧ (capture = none → r.2.2 = none)

theorem imap4OutReadCapability_returns (relay : Bool) (ok tag : Token) (capture : Option Capture)
    (str : CString) :
    (imap4OutReadCapability relay ok tag capture str).Obeys Contract.any
      (LookupReturns tag capture) := by
  have response (tag : Option Token) (desired : Token) (given : Option Capture)
      (none_ : capture = none → given = none) :
      (imap4OutResponse relay tag desired given).Obeys Contract.any
        fun r => capture = none → r.capture = none := by
    cases capture with
    | none =>
      obtain rfl := none_ rfl
      exact obeys_mono (imap4OutResponse_capture relay tag desired) fun _ same _ => same
    | some c => exact obeys_mono (obeys_any _) fun _ _ same => by cases same
  unfold imap4OutReadCapability
  refine obeys_bind.mpr (obeys_mono (response _ _ capture id) fun untagged first => ?_)
  refine obeys_ite (fun _ => ⟨.inl rfl, first⟩) fun _ => ?_
  have again (none_ : capture = none) : Capture.again capture untagged.capture = none := by
    rw [first none_]
    rfl
  refine obeys_bind.mpr (obeys_mono (response _ _ _ again) fun tagged second => ?_)
  exact obeys_ite (fun _ => ⟨.inl rfl, second⟩) fun _ => ⟨.inr rfl, second⟩

theorem imap4OutGetCapability_returns (relay : Bool) (ok tag : Token) (capture : Option Capture)
    (str : CString) :
    (imap4OutGetCapability relay ok tag capture str).Obeys Contract.any
      (LookupReturns tag capture) := by
  have cleared (r : Int × Token × Option Capture) (given : LookupReturns tag (Capture.cleared capture)
      r) : LookupReturns tag capture r := ⟨given.1, fun none_ => given.2 (by rw [none_]; rfl)⟩
  have ended (r : Int × Token × Option Capture) (given : LookupReturns tag capture r) :
      (do return (r.1, r.2.1, ← Capture.dropTag r.2.2) :
        Exchange (Int × Token × Option Capture)).Obeys Contract.any (LookupReturns tag capture) := by
    obtain ⟨status, tag', after⟩ := r
    obtain ⟨tags, none_⟩ := given
    cases after with
    | none => exact ⟨tags, fun _ => rfl⟩
    | some c =>
      have some_ : capture ≠ none := fun same => by cases none_ same
      exact obeys_bind_any fun _ => ⟨tags, fun same => absurd same some_⟩
  refine obeys_bind_any fun written => obeys_ite (fun _ => ?_) fun _ => ?_
  · exact ended (-1, tag, Capture.cleared capture) (cleared _ ⟨.inl rfl, id⟩)
  · exact obeys_bind.mpr (obeys_mono
      (imap4OutReadCapability_returns relay ok tag (Capture.cleared capture) str)
        fun r given => ended r (cleared r given))

/-- In a lookup one message is sent. -/
theorem lookup_unsaid {tag : Token} {capture : Option Capture} {str : CString} (ours : OurTag tag)
    (fuel : Nat) (t : Talk) :
    (t.asked tag).Unsaid ((imap4OutGetCapability true imap4OkToken tag capture str).run Talk.step fuel
      t).state := by
  have command : imap4WriteStr nullFlag (some tag) (some (lit "CAPABILITY")) none =
      send (capabilityCommand tag) := imap4WriteStr_capability ours
  rw [imap4OutGetCapability, run_bind, command, Talk.run_say, Outcome.next_done]
  refine Talk.run_unsaid (show Obeys (sending fun _ => False) _ fun _ => True from ?_) fuel
    (t.asked tag)
  have ended (capture : Option Capture) (status : Int) (tag : Token) :
      (do return (status, tag, ← Capture.dropTag capture) :
        Exchange (Int × Token × Option Capture)).Obeys (sending fun _ => False) fun _ => True :=
    obeys_then (dropTag_sending _) fun _ => trivial
  refine obeys_ite (fun _ => ?_) fun _ => ?_
  · exact ended _ _ _
  · exact obeys_bind.mpr (obeys_mono (imap4OutReadCapability_sending _ _ _ _ ours) fun r _ =>
      ended _ _ _)

/-! ## The handshake -/

/-- Dropping the tag is no talk. -/
theorem dropTag_state (capture : Option Capture) (fuel : Nat) (t : Talk) :
    ((Capture.dropTag capture).run Talk.step fuel t).state = t := by
  unfold Capture.dropTag
  split
  · rfl
  · split <;> rfl

/-- What `imap4_out_authenticate` does after the lookup. -/
def afterLookup (auth : Auth) (capture : Option Capture) (fuel : Nat)
    (r : Int × Token × Option Capture) (t : Talk) : Outcome Talk Stop (Int × Option Capture) :=
  if r.1 < 0 then .done (-1, r.2.2) t
  else if r.1 ≠ 0 then .done (2, r.2.2) t
  else match auth.authenticationId, auth.passwd with
    | some user, some passwd => (imap4OutLogin r.2.1 user passwd capture r.2.2).run Talk.step fuel t
    | _, _ => .halted (.fault .nullPointer) t

/-- `imap4_out_authenticate` in a talk. -/
theorem run_authenticate (auth : Auth) (tag : Token) (capture : Option Capture) (fuel : Nat)
    (t : Talk) :
    (imap4OutAuthenticate auth tag capture).run Talk.step fuel t =
      ((imap4OutGetCapability true imap4OkToken tag capture (lit "LOGINDISABLED")).run Talk.step fuel
        t).next fun r t => (afterLookup auth capture fuel r t).next fun v t =>
          ((Capture.dropTag v.2).run Talk.step fuel t).next fun c t =>
            .done ⟨v.1, imap4TagInc r.2.1, c⟩ t := by
  rw [imap4OutAuthenticate, run_bind]
  congr 1
  funext r t
  obtain ⟨status, tag', now⟩ := r
  unfold afterLookup
  dsimp only
  by_cases failed : status < 0
  · rw [if_pos failed, if_pos failed]
    rfl
  rw [if_neg failed, if_neg failed]
  by_cases found : status ≠ 0
  · rw [if_pos found, if_pos found]
    rfl
  rw [if_neg found, if_neg found]
  cases auth.authenticationId with
  | none => rfl
  | some user =>
    cases auth.passwd with
    | none => rfl
    | some passwd => rfl

/-- The end of `imap4_out_authenticate` is no talk. -/
theorem ended_state (outcome : Outcome Talk Stop (Int × Option Capture)) (tag : Token) (fuel : Nat) :
    (outcome.next fun v t => ((Capture.dropTag v.2).run Talk.step fuel t).next fun c t =>
      .done (⟨v.1, imap4TagInc tag, c⟩ : OutAuth) t).state = outcome.state := by
  cases outcome with
  | done v t =>
    have same := dropTag_state v.2 fuel t
    rw [Outcome.next_done]
    cases dropped : (Capture.dropTag v.2).run Talk.step fuel t with
    | done c t' => rw [dropped] at same; exact same
    | halted why t' => rw [dropped] at same; exact same
    | looping t' => rw [dropped] at same; exact same
  | halted why t => rfl
  | looping t => rfl

/-- What is kept after a lookup is what LOGIN keeps. -/
theorem afterLookup_kept (auth : Auth) (capture : Option Capture) (fuel : Nat) (status : Int)
    (tag : Token) (now : Option Capture) {t : Talk} (begun : t.log.past.length = 1) :
    HandshakeKept (afterLookup auth capture fuel (status, tag, now) t).state.log.turns.reverse ↔
      ∀ user passwd, status = 0 → auth.authenticationId = some user → auth.passwd = some passwd →
        LoginKept tag user passwd capture now fuel t := by
  have short : HandshakeKept t.log.turns.reverse :=
    handshakeKept_short (by simp [Log.turns, begun])
  unfold afterLookup
  dsimp only
  by_cases zero : status = 0
  swap
  · have kept : (if status < 0 then .done (-1, now) t
        else if status ≠ 0 then .done (2, now) t
        else match auth.authenticationId, auth.passwd with
          | some user, some passwd =>
            (imap4OutLogin tag user passwd capture now).run Talk.step fuel t
          | _, _ => .halted (.fault .nullPointer) t :
        Outcome Talk Stop (Int × Option Capture)).state = t := by
      rw [if_pos zero]
      split <;> rfl
    rw [kept]
    exact iff_of_true short fun _ _ same => absurd same zero
  subst zero
  rw [if_neg (by decide), if_neg (by simp)]
  cases name : auth.authenticationId with
  | none => exact iff_of_true short fun _ _ _ same => by cases same
  | some user =>
    cases word : auth.passwd with
    | none => exact iff_of_true short fun _ _ _ _ same => by cases same
    | some passwd =>
      refine (login_kept tag user passwd capture now fuel begun).trans ⟨?_, fun all =>
        all user passwd rfl rfl rfl⟩
      rintro kept _ _ - ⟨⟩ ⟨⟩
      exact kept

section Authenticate

variable {auth : Auth} {tag : Token} {capture : Option Capture} {fuel : Nat} {t : Talk}

/-- One message has been sent when the lookup ends. -/
theorem lookup_begun (capture : Option Capture) (str : CString) (fuel : Nat) (ours : OurTag tag)
    (begun : t.log = .start) :
    ((imap4OutGetCapability true imap4OkToken tag capture str).run Talk.step fuel
      t).state.log.past.length = 1 := by
  rw [(lookup_unsaid ours fuel t).past]
  simp [Talk.asked, Talk.say, Log.say, begun, Log.start]

/-- What `imap4_out_authenticate` keeps is what LOGIN keeps where it is sent. -/
theorem handshakeKept_iff (ours : OurTag tag) (begun : t.log = .start) :
    HandshakeKept
        ((imap4OutAuthenticate auth tag capture).run Talk.step fuel t).state.log.turns.reverse ↔
      ∀ tag' now t₁ user passwd,
        (imap4OutGetCapability true imap4OkToken tag capture (lit "LOGINDISABLED")).run Talk.step
          fuel t = .done (0, tag', now) t₁ →
        auth.authenticationId = some user → auth.passwd = some passwd →
        LoginKept tag' user passwd capture now fuel t₁ := by
  have past := lookup_begun capture (lit "LOGINDISABLED") fuel ours begun
  rw [run_authenticate]
  generalize (imap4OutGetCapability true imap4OkToken tag capture (lit "LOGINDISABLED")).run Talk.step
    fuel t = lookup at past ⊢
  cases lookup with
  | done r t₁ =>
    obtain ⟨status, tag', now⟩ := r
    change t₁.log.past.length = 1 at past
    rw [Outcome.next_done, ended_state, afterLookup_kept auth capture fuel status tag' now past]
    constructor
    · rintro kept _ _ _ user passwd ⟨⟩ name word
      exact kept user passwd rfl name word
    · rintro kept user passwd rfl name word
      exact kept _ _ _ user passwd rfl name word
  | halted why t₁ =>
    exact iff_of_true (handshakeKept_short (by
      change t₁.log.past.length = 1 at past
      simp [Log.turns, Outcome.state, Outcome.next, past])) fun _ _ _ _ _ run => by cases run
  | looping t₁ =>
    exact iff_of_true (handshakeKept_short (by
      change t₁.log.past.length = 1 at past
      simp [Log.turns, Outcome.state, Outcome.next, past])) fun _ _ _ _ _ run => by cases run

/-- `imap4_out_authenticate` succeeds only where LOGIN does. -/
theorem handshake_success (ours : OurTag tag) (begun : t.log = .start) (within : t.Within fuel)
    {r : OutAuth} {t' : Talk}
    (run : (imap4OutAuthenticate auth tag capture).run Talk.step fuel t = .done r t')
    (success : r.status = 1) :
    t'.log.turns.length = 5 ∧ (capture = none →
      t'.log.now.Accepted tag ∨ t'.log.now.Accepted (imap4TagInc tag)) := by
  have past := lookup_begun capture (lit "LOGINDISABLED") fuel ours begun
  have within' := Talk.run_within
    (imap4OutGetCapability true imap4OkToken tag capture (lit "LOGINDISABLED")) fuel within
  rw [run_authenticate] at run
  cases lookup : (imap4OutGetCapability true imap4OkToken tag capture (lit "LOGINDISABLED")).run
      Talk.step fuel t with
  | halted why t₁ => rw [lookup] at run; cases run
  | looping t₁ => rw [lookup] at run; cases run
  | done v t₁ =>
    have returned := run_returns (imap4OutGetCapability_returns _ _ _ _ _) lookup
    obtain ⟨status, tag', now⟩ := v
    rw [lookup] at run past within'
    rw [Outcome.next_done] at run
    have state := congrArg Outcome.state run
    rw [ended_state] at state
    cases after : afterLookup auth capture fuel (status, tag', now) t₁ with
    | halted why t₂ => rw [after] at run; cases run
    | looping t₂ => rw [after] at run; cases run
    | done value t₂ =>
      rw [after] at run state
      have same : t₂ = t' := state
      subst same
      have okay : value.1 = 1 := by
        rw [Outcome.next_done] at run
        cases dropped : (Capture.dropTag value.2).run Talk.step fuel t₂ with
        | done c t₃ =>
          rw [dropped] at run
          rw [← (Outcome.done.inj run).1] at success
          exact success
        | halted why t₃ => rw [dropped] at run; cases run
        | looping t₃ => rw [dropped] at run; cases run
      unfold afterLookup at after
      dsimp only at after
      split at after
      · rw [← (Outcome.done.inj after).1] at okay
        cases okay
      · split at after
        · rw [← (Outcome.done.inj after).1] at okay
          cases okay
        · split at after
          · obtain ⟨length, accepted⟩ := login_success within' past after okay
            refine ⟨length, fun none_ => ?_⟩
            have accepted := accepted none_ (returned.2 none_)
            rcases returned.1 with same | same
            · exact .inl (same ▸ accepted)
            · exact .inr (same ▸ accepted)
          · cases after

/-- What is held of the handshake is seen in the talk. -/
theorem handshakeHeld_talk {w : World} (talks : w.Talks w.trace.length t) (ours : OurTag tag)
    (within : t.Within fuel) :
    HandshakeHeld auth tag capture fuel w ↔ HandshakeKept
      ((imap4OutAuthenticate auth tag capture).run Talk.step fuel t).state.log.turns.reverse := by
  have begun : t.log = .start := talks.log_start
  have related := run_talk (imap4OutAuthenticate_sending auth capture ours) w.trace.length fuel talks
  have success : ∀ r t', (imap4OutAuthenticate auth tag capture).run Talk.step fuel t = .done r t' →
      r.status = 1 → t'.log.turns.length = 5 ∧ (capture = none →
        t'.log.now.Accepted tag ∨ t'.log.now.Accepted (imap4TagInc tag)) :=
    fun _ _ => handshake_success ours begun within
  unfold HandshakeHeld
  generalize (imap4OutAuthenticate auth tag capture).run exchangeStep fuel w = first at related ⊢
  generalize (imap4OutAuthenticate auth tag capture).run Talk.step fuel t = second
    at related success ⊢
  cases related with
  | escape gone => exact gone.elim
  | done seen =>
    constructor
    · rintro ⟨t', talks', kept, -⟩
      rw [← talks'.unique seen]
      exact kept
    · intro kept
      refine ⟨_, seen, kept, ?_⟩
      rintro _ _ ⟨⟩ okay
      exact success _ _ rfl okay
  | halted seen =>
    constructor
    · rintro ⟨t', talks', kept, -⟩
      rw [← talks'.unique seen]
      exact kept
    · exact fun kept => ⟨_, seen, kept, fun _ _ run => by cases run⟩
  | looping seen =>
    constructor
    · rintro ⟨t', talks', kept, -⟩
      rw [← talks'.unique seen]
      exact kept
    · exact fun kept => ⟨_, seen, kept, fun _ _ run => by cases run⟩

/-- The handshake is held where the real server accepts the literals of LOGIN, and without a buffer only
there. -/
theorem handshakeHeld_iff {w : World} (talks : w.Talks w.trace.length t) (ours : OurTag tag)
    (within : t.Within fuel) :
    (HandshakeWorks auth tag capture fuel t → HandshakeHeld auth tag capture fuel w) ∧
      (capture = none →
        (HandshakeHeld auth tag capture fuel w ↔ HandshakeWorks auth tag capture fuel t)) := by
  have begun : t.log = .start := talks.log_start
  have after {tag' : Token} {now : Option Capture} {t₁ : Talk}
      (run : (imap4OutGetCapability true imap4OkToken tag capture (lit "LOGINDISABLED")).run Talk.step
        fuel t = .done (0, tag', now) t₁) : t₁.Within fuel := by
    have kept := Talk.run_within
      (imap4OutGetCapability true imap4OkToken tag capture (lit "LOGINDISABLED")) fuel within
    rwa [run] at kept
  rw [handshakeHeld_talk talks ours within, handshakeKept_iff ours begun]
  have works (condition : HandshakeWorks auth tag capture fuel t) :
      ∀ tag' now t₁ user passwd,
        (imap4OutGetCapability true imap4OkToken tag capture (lit "LOGINDISABLED")).run Talk.step
          fuel t = .done (0, tag', now) t₁ →
        auth.authenticationId = some user → auth.passwd = some passwd →
        LoginKept tag' user passwd capture now fuel t₁ :=
    fun tag' now t₁ user passwd run name word =>
      loginKept_of_continues (after run) (condition tag' now t₁ user passwd run name word)
  refine ⟨works, ?_⟩
  rintro rfl
  refine ⟨fun kept tag' now t₁ user passwd run name word => ?_, works⟩
  have none_ : now = none :=
    (run_returns (imap4OutGetCapability_returns _ _ _ _ _) run).2 rfl
  subst none_
  exact continues_of_loginKept (after run) (kept tag' none t₁ user passwd run name word)

end Authenticate

/-- The credentials `u` and `p`. -/
def Auth.sample : Auth := Auth.setPwd (some (lit "u")) (some (lit "p"))

/-- A real server that asks for both literals, cut into reads. -/
def handshakeReads : List (List Byte) :=
  [bytes "* CAPABILITY IMAP4\r\nflim07 OK done\r\n", bytes "+ go\r\n* 1 EXISTS\r\n+ ",
    bytes "go\r\nflim08 OK in\r\n"]

/-- A login that the real server accepts. -/
theorem handshakeHeld_accepted :
    HandshakeHeld Auth.sample imap4TagCreate none 96 (World.connected handshakeReads) := by
  have within : (Talk.reading handshakeReads).Within 96 := ⟨by decide, by decide⟩
  refine (handshakeHeld_iff (World.connected_talks handshakeReads) .create within).1 ?_
  intro tag' now t₁ user passwd run name word
  have ended : TaggedOk imap4TagCreate (bytes "flim07 OK done\r") :=
    ⟨by decide, by decide, _, _, rfl, by decide⟩
  obtain ⟨capture', lookup, _⟩ := run_lookup true (lit "LOGINDISABLED") .create rfl
    (t := Talk.reading handshakeReads) (show _ = wire [bytes "* CAPABILITY IMAP4\r"] ++
      (bytes "flim07 OK done\r" ++ lf :: bytes "+ go\r\n* 1 EXISTS\r\n+ go\r\nflim08 OK in\r\n") by
        decide) (by decide) ended (show LookupFits none _ _ from ⟨by simp, by simp⟩) within.1
    ⟨⟨_, rfl, by decide⟩, by decide⟩ fun _ => trivial
  have none_ : capture' = none := (run_returns (imap4OutGetCapability_returns _ _ _ _ _) lookup).2 rfl
  subst none_
  rw [lookup] at run
  obtain ⟨value, rfl⟩ := Outcome.done.inj run
  obtain ⟨-, rfl, rfl⟩ := by simpa using value
  obtain rfl := Option.some.inj name
  obtain rfl := Option.some.inj word
  intro login _ _ _
  refine .inr ⟨_, _, .intro (show _ = wire [] ++ (bytes "+ go\r" ++ lf ::
    bytes "* 1 EXISTS\r\n+ go\r\nflim08 OK in\r\n") from ?_) (by decide) (by decide) (by decide)
      trivial (fitAll_none _), ?_⟩
  · simp only [Talk.passed, Talk.hearLine, Talk.say, Talk.asked]
    decide
  intro name _ _ _
  refine .inr ⟨_, _, .intro (show _ = wire [bytes "* 1 EXISTS\r"] ++ (bytes "+ go\r" ++ lf ::
    bytes "flim08 OK in\r\n") from ?_) (by decide) (by decide) (by decide)
      ⟨show Relayed [] _ by decide, rfl, trivial⟩ (fitAll_none _)⟩
  simp only [Talk.passed, Talk.hearLine, Talk.say, Talk.asked]
  decide

/-- A login that the real server refuses at once, and the password is sent. -/
theorem handshakeHeld_refused :
    ¬ HandshakeHeld Auth.sample imap4TagCreate none 96 (World.connected
      [bytes "* CAPABILITY IMAP4\r\nflim07 OK done\r\n",
        bytes "flim08 NO no\r\nflim08 NO no\r\nflim08 NO no\r\n"]) := by
  intro held
  have kept := (handshakeHeld_talk (World.connected_talks _) .create
    ⟨by decide, by decide⟩).mp held
  have continued := kept.user ⟨bytes "flim08 LOGIN \x7b1\x7d\r\n", true, bytes "flim08 NO no\r\n", false⟩
    (by decide +kernel) (by decide +kernel)
  obtain ⟨-, lines, plus, heard, untagged, whole, plus_⟩ := continued
  have same : bytes "flim08 NO no\r" = plus :=
    wire_last [] (by decide) (fun line member => (untagged line member).1) whole
      (by rw [← heard]; decide)
  rw [← same] at plus_
  exact absurd plus_ (by decide)

end Perdition
