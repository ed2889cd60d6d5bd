import Perdition.Verif.SieveWriting
import Perdition.Verif.Visits

/-!
# Commands of a ManageSieve client

One round of `managesieve_in_get_auth` as a function of the bytes that the client sends, `react`: what is
told to the client, what is left of its bytes and the status of the round, where all writes succeed.
-/
namespace Perdition

open Lib Program

/-! ## Steps of a talk -/

namespace Talk

/-- Part of the stream was read, and then this was said. -/
structure Moves (t t' : Talk) (rest content : List Byte) : Prop where
  /-- What is left of the stream. -/
  stream : t'.stream = rest
  /-- What comes after it. -/
  later : t'.later = t.later
  /-- The types of the connections. -/
  type : t'.type = t.type
  /-- The end of the write buffer. -/
  stale : t'.stale = t.stale
  /-- Writes succeed as before. -/
  writable : t.Writable → t'.Writable
  /-- What was said. -/
  said : t'.log.saidAll = t.log.saidAll ++ content
  /-- No read failed. -/
  silent : t.log.now.silent = false → t'.log.now.silent = false

theorem Moves.refl (t : Talk) : t.Moves t t.stream [] :=
  ⟨rfl, rfl, rfl, rfl, id, by simp, id⟩

theorem Moves.trans {t t' t'' : Talk} {rest rest' content content' : List Byte}
    (first : t.Moves t' rest content) (second : t'.Moves t'' rest' content') :
    t.Moves t'' rest' (content ++ content') where
  stream := second.stream
  later := second.later.trans first.later
  type := second.type.trans first.type
  stale := second.stale.trans first.stale
  writable := second.writable ∘ first.writable
  said := by rw [second.said, first.said, List.append_assoc]
  silent := second.silent ∘ first.silent

/-- Hearing adds nothing to what was said. -/
@[simp] theorem saidAll_hear (log : Log) (content : List Byte) :
    (log.hear content).saidAll = log.saidAll := by
  simp [Log.saidAll, Log.turns, Log.hear]

@[simp] theorem saidAll_starve (log : Log) : log.starve.saidAll = log.saidAll := by
  simp [Log.saidAll, Log.turns, Log.starve]

/-- Reading up to a rest. -/
theorem moves_advance (t : Talk) (rest : List Byte) : t.Moves (t.advance rest) rest [] :=
  ⟨rfl, rfl, rfl, rfl, id, by simp [advance], id⟩

/-- Saying something. -/
theorem moves_say (t : Talk) (content : List Byte) :
    t.Moves (t.say content).2 t.stream content :=
  ⟨rfl, rfl, rfl, rfl, fun writable => (writable.say content).2, Log.saidAll_say _ _ _,
    fun _ => rfl⟩

/-- A read failed after nothing more was said. -/
structure Starves (t t' : Talk) : Prop where
  /-- A read failed. -/
  silent : t'.log.now.silent = true
  /-- What was said. -/
  said : t'.log.saidAll = t.log.saidAll

theorem starves_starved (t : Talk) : t.Starves t.starved :=
  ⟨rfl, by simp [starved]⟩

theorem Moves.starves {t t' t'' : Talk} {rest : List Byte} (first : t.Moves t' rest [])
    (second : t'.Starves t'') : t.Starves t'' :=
  ⟨second.silent, by rw [second.said, first.said, List.append_nil]⟩

end Talk

/-! ## Reactions -/

/-- What a part of a round comes to where writes succeed. -/
inductive Reaction (α : Type) where
  /-- A read fails. -/
  | starved
  /-- Memory outside an object is used. -/
  | fault
  /-- It returns after this was said, with this left of the stream. -/
  | moved (value : α) (content rest : List Byte)

/-- The value is passed on. -/
def Reaction.map {α β : Type} (f : α → β) : Reaction α → Reaction β
  | .starved => .starved
  | .fault => .fault
  | .moved value content rest => .moved (f value) content rest

/-- A run from a talk comes to a reaction. A failed read gives this value. -/
def Talk.Reacts {α : Type} (t : Talk) (failed : α) :
    Reaction α → Outcome Talk Stop α → Prop
  | .starved, outcome => ∃ t', outcome = .done failed t' ∧ t.Starves t'
  | .fault, outcome => ∃ why t', outcome = .halted why t'
  | .moved value content rest, outcome =>
    ∃ t', outcome = .done value t' ∧ t.Moves t' rest content

namespace Talk

variable {α β : Type} {t : Talk}

/-- A value that is passed on. -/
theorem Reacts.next {failed : α} {reaction : Reaction α} {outcome : Outcome Talk Stop α}
    (f : α → β) (reacts : t.Reacts failed reaction outcome) :
    t.Reacts (f failed) (reaction.map f) (outcome.next fun a t' => .done (f a) t') := by
  cases reaction with
  | starved =>
    have ⟨t', run, starves⟩ := reacts
    exact ⟨t', by rw [run]; rfl, starves⟩
  | fault =>
    have ⟨why, t', run⟩ := reacts
    exact ⟨why, t', by rw [run]; rfl⟩
  | moved value content rest =>
    have ⟨t', run, moves⟩ := reacts
    exact ⟨t', by rw [run]; rfl, moves⟩

theorem Reacts.map {failed : α} {reaction : Reaction α} {program : Dialogue α} {fuel : Nat}
    (f : α → β) (reacts : t.Reacts failed reaction (program.run serverStep fuel t)) :
    t.Reacts (f failed) (reaction.map f)
      ((do return f (← program) : Dialogue β).run serverStep fuel t) :=
  reacts.next f

/-- What comes after reading. -/
theorem Reacts.after {t' : Talk} {failed : α} {reaction : Reaction α}
    {outcome : Outcome Talk Stop α} {rest : List Byte} (first : t.Moves t' rest [])
    (reacts : t'.Reacts failed reaction outcome) : t.Reacts failed reaction outcome := by
  cases reaction with
  | starved =>
    have ⟨last, run, starves⟩ := reacts
    exact ⟨last, run, first.starves starves⟩
  | fault => exact reacts
  | moved value content rest' =>
    have ⟨last, run, moves⟩ := reacts
    exact ⟨last, run, first.trans moves⟩

end Talk

/-! ## Messages -/

/-- A line with a status word and a message in quotes. -/
def statusLine (word : String) (message : CString) : List Byte :=
  (lit word).content ++ space :: dquote :: (message.content ++ dquote :: crlf)

/-- A message that is sent in one piece. -/
def Short (message : CString) : Prop := ¬ message.Broken ∧ message.length + 6 ≤ maxText

instance (message : CString) : Decidable (Short message) := inferInstanceAs (Decidable (_ ∧ _))

/-- A message without a response code is one line. -/
theorem run_status (word : String) (small : (lit word).length ≤ 3) {message : CString}
    (short : Short message) (fuel : Nat) {t : Talk} (writable : t.Writable) :
    (managesieveWrite perditionServer (lit word) none (some message)).run Talk.serverStep fuel t =
      .done 0 (t.say (statusLine word message)).2 := by
  obtain ⟨quoted, none_⟩ := acapFromStr_quoted short.1 perditionServer
  have long : (acapFromStr message perditionServer).a.length = message.length + 2 := by
    have same := congrArg List.length quoted
    simp only [List.length_cons, List.length_append, List.length_nil] at same
    exact same
  have line : firstLine perditionServer (lit word) (some message) =
      joined (lit word) [(acapFromStr message perditionServer).a] := rfl
  have content : (firstLine perditionServer (lit word) (some message)).content ++ crlf =
      statusLine word message := by
    simp [line, content_joined, quoted, statusLine]
  have fits : (firstLine perditionServer (lit word) (some message)).length ≤ maxText := by
    have gap : (lit " ").length = 1 := by decide
    have appended (left right : CString) : (left ++ right).length = left.length + right.length :=
      List.length_append
    have room := short.2
    simp only [line, joined, List.foldl_cons, List.foldl_nil, appended, gap, long]
    omega
  have body : bodyLine perditionServer (some message) = none := none_
  rw [run_plain _ _ _ _ writable, rawSends_eq, if_pos fits, content, body]
  obtain ⟨ok, _⟩ := writable.say (statusLine word message)
  simp only [Talk.spoken, ok, if_true, Outcome.next_done]
  rfl

/-- NO is answered. -/
def reactNo (message : CString) (rest : List Byte) : Reaction Int :=
  .moved (-1) (statusLine "NO" message) rest

/-- OK is answered. -/
def reactOk (message : CString) (rest : List Byte) : Reaction Int :=
  .moved 0 (statusLine "OK" message) rest

theorem no_reacts (message : CString) (short : Short message) (fuel : Nat) {t : Talk}
    (writable : t.Writable) :
    t.Reacts (-3) (reactNo message t.stream)
      ((managesieveInNo message).run Talk.serverStep fuel t) := by
  have run := run_status "NO" (by decide) short fuel writable
  refine ⟨(t.say (statusLine "NO" message)).2, ?_, t.moves_say _⟩
  change (((managesieveWrite perditionServer (lit "NO") none (some message)).run Talk.serverStep
    fuel t).next fun status t' => _) = _
  rw [run]
  rfl

theorem ok_reacts (message : CString) (short : Short message) (fuel : Nat) {t : Talk}
    (writable : t.Writable) :
    t.Reacts (-3) (reactOk message t.stream)
      ((managesieveInOk none message).run Talk.serverStep fuel t) := by
  have run := run_status "OK" (by decide) short fuel writable
  refine ⟨(t.say (statusLine "OK" message)).2, ?_, t.moves_say _⟩
  change (((managesieveWrite perditionServer (lit "OK") none (some message)).run Talk.serverStep
    fuel t).next fun status t' => _) = _
  rw [run]
  rfl

/-- A line that is sent as it is, if the buffer has room for it. -/
def reactRaw (message : CString) (rest : List Byte) : Reaction Int :=
  if message.length ≤ maxText then .moved 0 (message.content ++ crlf) rest
  else if message.length = maxText + 1 then
    .moved 0 (message.content.take maxText ++ [0] ++ crlf) rest
  else .fault

/-- A line that is said, with the status of a command. -/
theorem raw_reacts (message : CString) {t : Talk} (writable : t.Writable) :
    t.Reacts (-3) (reactRaw message t.stream) (t.spoken (rawSends message t.stale)) := by
  rw [rawSends_eq, reactRaw]
  split
  · obtain ⟨ok, _⟩ := writable.say (message.content ++ crlf)
    exact ⟨_, by simp only [Talk.spoken, ok, if_true], t.moves_say _⟩
  · split
    · obtain ⟨ok, _⟩ := writable.say (message.content.take maxText ++ [0] ++ crlf)
      exact ⟨_, by simp only [Talk.spoken, ok, if_true], t.moves_say _⟩
    · exact ⟨_, _, rfl⟩

theorem raw_returns (message : CString) {t : Talk} (writable : t.Writable) :
    (∃ t', t.spoken (rawSends message t.stale) = .done 0 t') ∨
      ∃ why t', t.spoken (rawSends message t.stale) = .halted why t' := by
  have reacts := raw_reacts message writable
  unfold reactRaw at reacts
  split at reacts
  · have ⟨t', run, _⟩ := reacts
    exact .inl ⟨t', run⟩
  · split at reacts
    · have ⟨t', run, _⟩ := reacts
      exact .inl ⟨t', run⟩
    · exact .inr reacts

/-- A line that is written by a command. -/
theorem sent_reacts (message : CString) (failed : Int) (fuel : Nat) {t : Talk}
    (writable : t.Writable) :
    t.Reacts (-3) (reactRaw message t.stream)
      ((do if (← managesieveWriteRaw message) < 0 then return failed else return 0 :
        Dialogue Int).run Talk.serverStep fuel t) := by
  have line := raw_reacts message writable
  have sent : (do if (← managesieveWriteRaw message) < 0 then return failed else return 0 :
      Dialogue Int).run Talk.serverStep fuel t = t.spoken (rawSends message t.stale) := by
    rw [run_bind, Talk.run_raw]
    cases raw_returns message writable with
    | inl returns =>
      have ⟨t', run⟩ := returns
      rw [run]
      rfl
    | inr halts =>
      have ⟨why, t', run⟩ := halts
      rw [run]
      rfl
  rw [sent]
  exact line

/-- What is sent of a response code with a string that has a line end in it: the string, a closing
parenthesis and the message. -/
def noopLine (str : CString) : CString :=
  joined (lit "OK") [str ++ lit ")", (acapFromStr (lit "NOOP completed, mate") perditionServer).a]

/-- The response code of a NOOP is left out where its string is quoted, and so is the reply. -/
theorem tag_reacts (str : CString) (fuel : Nat) {t : Talk} (writable : t.Writable) :
    t.Reacts (-3) (if str.Broken then reactRaw (noopLine str) t.stream else .moved 0 [] t.stream)
      ((managesieveInOk (some ⟨lit "TAG", [str]⟩) (lit "NOOP completed, mate")).run
        Talk.serverStep fuel t) := by
  have whole : (acapFromStr (lit "NOOP completed, mate") perditionServer).b = none := by
    decide +kernel
  have unfolded : (managesieveInOk (some ⟨lit "TAG", [str]⟩) (lit "NOOP completed, mate")).run
      Talk.serverStep fuel t =
        (((managesieveWriteRc (some (acapFromStr (lit "NOOP completed, mate") perditionServer).a)
          (some (lit "OK"))
          ((managesieveResponseStr ⟨lit "TAG", [str]⟩ perditionServer).drop 1)).run
            Talk.serverStep fuel t).next fun status t' =>
              .done (if status < 0 then -3 else 0) t') := by
    unfold managesieveInOk managesieveOk managesieveWrite
    simp only [run_bind, Option.map_some, Option.bind_some, whole]
    cases (managesieveWriteRc (some (acapFromStr (lit "NOOP completed, mate") perditionServer).a)
        (some (lit "OK"))
        ((managesieveResponseStr ⟨lit "TAG", [str]⟩ perditionServer).drop 1)).run
          Talk.serverStep fuel t with
    | done status t' =>
      simp only [Outcome.next_done]
      by_cases failed : status < 0
      · simp [failed]
      · simp [failed]
    | halted why t' => rfl
    | looping t' => rfl
  rw [unfolded]
  by_cases broken : str.Broken
  · obtain ⟨_, body⟩ := acapFromStr_broken broken perditionServer
    have parts : (managesieveResponseStr ⟨lit "TAG", [str]⟩ perditionServer).drop 1 =
        [str ++ lit ")"] := by
      simp [managesieveResponseStr, managesieveResponseArgs, body]
    have written : (managesieveWriteList [some (lit "OK"), some (str ++ lit ")"),
        some (acapFromStr (lit "NOOP completed, mate") perditionServer).a]).run
          Talk.serverStep fuel t = t.spoken (rawSends (noopLine str) t.stale) :=
      Talk.run_list rfl fuel t
    have sent : (((managesieveWriteRc
        (some (acapFromStr (lit "NOOP completed, mate") perditionServer).a) (some (lit "OK"))
        [str ++ lit ")"]).run Talk.serverStep fuel t).next fun status t' =>
          .done (if status < 0 then (-3 : Int) else 0) t') =
            t.spoken (rawSends (noopLine str) t.stale) := by
      change (((managesieveWriteList [some (lit "OK"), some (str ++ lit ")"),
        some (acapFromStr (lit "NOOP completed, mate") perditionServer).a]).run
          Talk.serverStep fuel t).next _).next _ = _
      rw [written]
      cases raw_returns (noopLine str) writable with
      | inl returns =>
        obtain ⟨t', run⟩ := returns
        rw [run]
        rfl
      | inr halts =>
        obtain ⟨why, t', run⟩ := halts
        rw [run]
        rfl
    rw [parts, sent, if_pos broken]
    exact raw_reacts (noopLine str) writable
  · obtain ⟨_, body⟩ := acapFromStr_quoted broken perditionServer
    have parts : (managesieveResponseStr ⟨lit "TAG", [str]⟩ perditionServer).drop 1 = [] := by
      simp [managesieveResponseStr, managesieveResponseArgs, body]
    rw [parts, if_neg broken]
    exact ⟨t, rfl, .refl t⟩

/-! ## Strings of the client -/

/-- What `acap_token_wrapper_literal` makes of the stream after the line that announces a literal. -/
def scanLiteral (len : Nat) (type : AcapType) (stream : List Byte) :
    Option (AcapTokenWrapperStatus × List Byte) :=
  if len = 0 then some (⟨0, type, none, some .empty⟩, stream)
  else (scanToken none tokenImap4Literal len .start stream).bind fun body =>
    (scanLine tokenPop3 0 body.2).bind fun line => match line.1 with
      | [] => none
      | t :: q =>
        if t.len ≠ 0 then some (⟨-1, type, none, none⟩, line.2)
        else some (⟨0, type, queueOrNull q, some (cstr body.1.1.buf)⟩, line.2)

/-- What `acap_token_wrapper` makes of a token and of the stream after its line. -/
def scanString (platform : Platform) (t : Token) (q : Queue) (stream : List Byte) :
    Option (AcapTokenWrapperStatus × List Byte) :=
  match acapTokenStatus platform t with
  | (.err, _) => some (⟨-1, .err, none, none⟩, stream)
  | (.atom, _) => some (⟨0, .atom, queueOrNull q, some (strnToStr t.buf t.len)⟩, stream)
  | (.quoted, _) =>
    some (⟨0, .quoted, queueOrNull q, some (strnToStr (t.buf.drop 1) (t.len - 2))⟩, stream)
  | (type, len) => scanLiteral len type stream

/-- A line has a token. -/
theorem scanLine_ne_nil {flag : Flag} {m : Nat} {stream rest : List Byte} {q : Queue}
    (scanned : scanLine flag m stream = some (q, rest)) : q ≠ [] := by
  rw [scanLine] at scanned
  split at scanned
  · simp at scanned
  · split at scanned
    · simp only [Option.some.injEq, Prod.mk.injEq] at scanned
      rw [← scanned.1]
      simp
    · rename_i t _ rest' _ _
      cases more : scanLine flag m rest' with
      | none => simp [more] at scanned
      | some read =>
        simp only [more, Option.map_some, Option.some.injEq, Prod.mk.injEq] at scanned
        rw [← scanned.1]
        simp

/-- A line leaves less than there was. -/
theorem scanLine_shorter {flag : Flag} {m : Nat} {stream rest : List Byte} {q : Queue}
    (scanned : scanLine flag m stream = some (q, rest)) : rest.length < stream.length := by
  induction long : stream.length using Nat.strong_induction_on generalizing stream q with
  | _ n ih =>
    rw [scanLine] at scanned
    split at scanned
    · simp at scanned
    · rename_i t literal rest' first
      have shorter := scanToken_start first
      split at scanned
      · simp only [Option.some.injEq, Prod.mk.injEq] at scanned
        rw [← scanned.2]
        omega
      · cases more : scanLine flag m rest' with
        | none => simp [more] at scanned
        | some read =>
          simp only [more, Option.map_some, Option.some.injEq, Prod.mk.injEq] at scanned
          have inner := ih rest'.length (by omega)
            (show scanLine flag m rest' = some (read.1, rest) by rw [more, ← scanned.2]) rfl
          omega

/-- What a string comes to in a talk. -/
def Talk.ReadsString (t : Talk) (outcome : Outcome Talk Stop AcapTokenWrapperStatus) :
    Option (AcapTokenWrapperStatus × List Byte) → Prop
  | some (w, rest) => ∃ t', outcome = .done w t' ∧ t.Moves t' rest []
  | none => ∃ w t', outcome = .done w t' ∧ w.status = -2 ∧ t.Starves t'

theorem run_scanLiteral {t : Talk} {announced : Token} (ends : announced.isEol = true) (len : Nat)
    (type : AcapType) {fuel : Nat} (enough : t.stream.length < fuel) :
    t.ReadsString ((acapTokenWrapperLiteral announced len type).run Talk.serverStep fuel t)
      (scanLiteral len type t.stream) := by
  unfold acapTokenWrapperLiteral scanLiteral
  rw [if_neg (by simp [ends])]
  by_cases zero : len = 0
  · rw [if_pos zero, if_pos zero]
    exact ⟨t, rfl, .refl t⟩
  · rw [if_neg zero, if_neg zero]
    have token := Talk.run_tokenRead none tokenImap4Literal len enough
    rw [Talk.run_server] at token
    rw [run_bind, token]
    cases body : scanToken none tokenImap4Literal len .start t.stream with
    | none => exact ⟨_, t.starved, rfl, rfl, t.starves_starved⟩
    | some read =>
      obtain ⟨⟨word, literal⟩, rest⟩ := read
      have shorter := scanToken_length body
      have first := t.moves_advance rest
      have line := @Talk.run_readLine tokenPop3 lineFlag_pop3 0 fuel (t.advance rest)
        (by change rest.length < fuel; omega)
      rw [Talk.run_server] at line
      simp only [Option.map_some, Outcome.next_done, tokenToString_noStrip, Talk.after,
        Option.bind_some]
      rw [run_bind, line]
      change t.ReadsString (((Outcome.done _ ((t.advance rest).after
        (scanLine tokenPop3 0 rest)) : Outcome Talk Stop _)).next _)
          ((scanLine tokenPop3 0 rest).bind _)
      cases after : scanLine tokenPop3 0 rest with
      | none =>
        exact ⟨_, (t.advance rest).starved, by
          change (Outcome.next (.done ((scanLine tokenPop3 0 rest).map _) _) _) = _
          rw [after]
          rfl, rfl, first.starves (t.advance rest).starves_starved⟩
      | some read' =>
        obtain ⟨q, rest'⟩ := read'
        have second := first.trans ((t.advance rest).moves_advance rest')
        change t.ReadsString (Outcome.next (.done ((scanLine tokenPop3 0 rest).map _) _) _) _
        rw [after]
        cases q with
        | nil => exact absurd rfl (scanLine_ne_nil after)
        | cons next q =>
          simp only [Option.map_some, Outcome.next_done, Talk.after, Option.bind_some]
          by_cases more : next.len ≠ 0
          · rw [if_pos more, if_pos more]
            exact ⟨_, rfl, second⟩
          · rw [if_neg more, if_neg more]
            exact ⟨_, rfl, second⟩

/-- A token is a literal only at the end of its line. -/
theorem acapTokenStatus_literal {platform : Platform} {t : Token}
    (literal : (acapTokenStatus platform t).1 = .sychronisingLiteral ∨
      (acapTokenStatus platform t).1 = .nonSychronisingLiteral) : t.isEol = true := by
  unfold acapTokenStatus at literal
  split at literal
  · simp at literal
  · split at literal
    · split at literal
      · simp at literal
      · split at literal
        · simp at literal
        · simp at literal
    · split at literal
      · simp at literal
      · rename_i ends
        simpa using ends

theorem run_scanString (platform : Platform) {t : Talk} (token : Token) (q : Queue) {fuel : Nat}
    (enough : t.stream.length < fuel) :
    t.ReadsString ((acapTokenWrapper platform (token :: q)).run Talk.serverStep fuel t)
      (scanString platform token q t.stream) := by
  unfold acapTokenWrapper scanString
  cases status : acapTokenStatus platform token with
  | mk type len =>
    simp only [status]
    cases type with
    | err => exact ⟨t, rfl, .refl t⟩
    | atom => exact ⟨t, rfl, .refl t⟩
    | quoted => exact ⟨t, rfl, .refl t⟩
    | sychronisingLiteral =>
      exact run_scanLiteral (@acapTokenStatus_literal platform token
        (.inl (by rw [status]))) len _ enough
    | nonSychronisingLiteral =>
      exact run_scanLiteral (@acapTokenStatus_literal platform token
        (.inr (by rw [status]))) len _ enough

/-- A string that was scanned was read without an error of the connection. -/
theorem scanString_status {platform : Platform} {t : Token} {q : Queue} {stream rest : List Byte}
    {w : AcapTokenWrapperStatus} (scanned : scanString platform t q stream = some (w, rest)) :
    w.status ≠ -2 := by
  have literal {len : Nat} {type : AcapType}
      (scanned : scanLiteral len type stream = some (w, rest)) : w.status ≠ -2 := by
    unfold scanLiteral at scanned
    split at scanned
    · simp only [Option.some.injEq, Prod.mk.injEq] at scanned
      rw [← scanned.1]
      show ¬ (0 : Int) = -2
      decide
    · have ⟨body, _, scanned⟩ := Option.bind_eq_some_iff.mp scanned
      have ⟨line, _, scanned⟩ := Option.bind_eq_some_iff.mp scanned
      split at scanned
      · simp at scanned
      · split at scanned
        · simp only [Option.some.injEq, Prod.mk.injEq] at scanned
          rw [← scanned.1]
          show ¬ (-1 : Int) = -2
          decide
        · simp only [Option.some.injEq, Prod.mk.injEq] at scanned
          rw [← scanned.1]
          show ¬ (0 : Int) = -2
          decide
  unfold scanString at scanned
  split at scanned
  · simp only [Option.some.injEq, Prod.mk.injEq] at scanned
    rw [← scanned.1]
    show ¬ (-1 : Int) = -2
    decide
  · simp only [Option.some.injEq, Prod.mk.injEq] at scanned
    rw [← scanned.1]
    show ¬ (0 : Int) = -2
    decide
  · simp only [Option.some.injEq, Prod.mk.injEq] at scanned
    rw [← scanned.1]
    show ¬ (0 : Int) = -2
    decide
  · exact literal scanned

/-- A string that was scanned without an error is there. -/
theorem scanString_str {platform : Platform} {t : Token} {q : Queue} {stream rest : List Byte}
    {w : AcapTokenWrapperStatus} (scanned : scanString platform t q stream = some (w, rest))
    (fine : w.status = 0) : ∃ str, w.str = some str := by
  have literal {len : Nat} {type : AcapType}
      (scanned : scanLiteral len type stream = some (w, rest)) : ∃ str, w.str = some str := by
    unfold scanLiteral at scanned
    split at scanned
    · simp only [Option.some.injEq, Prod.mk.injEq] at scanned
      exact ⟨_, by rw [← scanned.1]⟩
    · have ⟨body, _, scanned⟩ := Option.bind_eq_some_iff.mp scanned
      have ⟨line, _, scanned⟩ := Option.bind_eq_some_iff.mp scanned
      split at scanned
      · simp at scanned
      · split at scanned
        · simp only [Option.some.injEq, Prod.mk.injEq] at scanned
          rw [← scanned.1] at fine
          exact absurd fine (show ¬ (-1 : Int) = 0 by decide)
        · simp only [Option.some.injEq, Prod.mk.injEq] at scanned
          exact ⟨_, by rw [← scanned.1]⟩
  unfold scanString at scanned
  split at scanned
  · simp only [Option.some.injEq, Prod.mk.injEq] at scanned
    rw [← scanned.1] at fine
    exact absurd fine (show ¬ (-1 : Int) = 0 by decide)
  · simp only [Option.some.injEq, Prod.mk.injEq] at scanned
    exact ⟨_, by rw [← scanned.1]⟩
  · simp only [Option.some.injEq, Prod.mk.injEq] at scanned
    exact ⟨_, by rw [← scanned.1]⟩
  · exact literal scanned

/-- A string leaves no more than there was. -/
theorem scanString_length (platform : Platform) {t : Token} {q : Queue} {stream rest : List Byte}
    {w : AcapTokenWrapperStatus} (scanned : scanString platform t q stream = some (w, rest)) :
    rest.length ≤ stream.length := by
  have literal {len : Nat} {type : AcapType}
      (scanned : scanLiteral len type stream = some (w, rest)) : rest.length ≤ stream.length := by
    unfold scanLiteral at scanned
    split at scanned
    · simp only [Option.some.injEq, Prod.mk.injEq] at scanned
      rw [scanned.2]
    · have ⟨body, word, scanned⟩ := Option.bind_eq_some_iff.mp scanned
      have ⟨line, after, scanned⟩ := Option.bind_eq_some_iff.mp scanned
      have shorter : body.2.length ≤ stream.length := scanToken_length word
      have less := scanLine_shorter after
      split at scanned
      · simp at scanned
      · split at scanned
        · simp only [Option.some.injEq, Prod.mk.injEq] at scanned
          rw [← scanned.2]
          omega
        · simp only [Option.some.injEq, Prod.mk.injEq] at scanned
          rw [← scanned.2]
          omega
  unfold scanString at scanned
  split at scanned
  · simp only [Option.some.injEq, Prod.mk.injEq] at scanned
    rw [scanned.2]
  · simp only [Option.some.injEq, Prod.mk.injEq] at scanned
    rw [scanned.2]
  · simp only [Option.some.injEq, Prod.mk.injEq] at scanned
    rw [scanned.2]
  · exact literal scanned

/-! ## Commands -/

/-- The texts of the messages. -/
def authenticateCount : CString := lit
  "Incorrect argument count, expected AUTHENTICATE <mechanism> [<challenge>], mate"

/-- The messages of the replies to a client. -/
def sieveTexts : List CString :=
  [authenticateCount,
    lit "Incorrect argument count, expected AUTHENTICATE \"PLAIN\" <challenge>, mate",
    lit "NOOP completed, mate",
    lit "LOGOUT completed, mate",
    lit "Begin TLS negotiation, mate",
    lit "Invalid AUTHENTICATE \"PLAIN\" challenge, mate",
    lit "Invalid AUTHENTICATE PLAIN challenge, mate",
    lit "Unknown SASL mechanism, mate",
    lit "Too many arguments, expected CAPABILITY, mate",
    lit "Too many arguments, expected LOGOUT, mate",
    lit "Too many arguments, expected NOOP [String], mate",
    lit "Too many arguments, expected STARTTLS, mate",
    lit "Unknown command, mate",
    lit "Challenge has no authentication id, mate",
    lit "Empty authentication id, mate",
    lit "Challenge has no password, mate",
    lit "Trailing garbage in challenge, mate",
    lit "Invalid base64 encoded challenge, mate",
    lit "Empty challenge, mate"]

/-- Every message is sent in one piece. -/
theorem sieveTexts_short {message : CString} (listed : message ∈ sieveTexts) : Short message := by
  have all : ∀ message ∈ sieveTexts, Short message := by decide +kernel
  exact all message listed

/-- What comes after a string. -/
def Reaction.reads {α : Type} (reaction : AcapTokenWrapperStatus → List Byte → Reaction α) :
    Option (AcapTokenWrapperStatus × List Byte) → Reaction α
  | none => .starved
  | some (w, rest) => reaction w rest

/-- What a challenge comes to. -/
def reactChallenge (platform : Platform) (w : AcapTokenWrapperStatus) (stream : List Byte) :
    Reaction ManagesieveInAuthStatus :=
  if !w.isString then
    (reactNo (lit "Invalid AUTHENTICATE \"PLAIN\" challenge, mate") stream).map
      ManagesieveInAuthStatus.plain
  else match w.str with
    | none => .fault
    | some str => match saslPlainChallengeDecode platform str with
      | .ok auth => .moved ⟨some auth, 0⟩ [] stream
      | .invalid reason => (reactNo reason stream).map ManagesieveInAuthStatus.plain
      | .error => .moved (.plain (-1)) [] stream
      | .beyond => .fault

/-- What `managesieve_in_sasl_plain` comes to. -/
def reactSaslPlain (platform : Platform) (q : Queue) (stream : List Byte) :
    Reaction ManagesieveInAuthStatus :=
  match q with
  | [t] => .reads (reactChallenge platform) (scanString platform t [] stream)
  | _ => (reactNo (lit
      "Incorrect argument count, expected AUTHENTICATE \"PLAIN\" <challenge>, mate") stream).map
        .plain

/-- The status of credentials that were read. -/
def ManagesieveInAuthStatus.read (as : ManagesieveInAuthStatus) : ManagesieveInAuthStatus :=
  if as.status = 0 then { as with status := 1 } else as

/-- What `managesieve_in_authenticate_cmd` comes to. -/
def reactAuthenticate (platform : Platform) (q : Queue) (stream : List Byte) :
    Reaction ManagesieveInAuthStatus :=
  if q.length = 0 ∨ 2 < q.length then (reactNo authenticateCount stream).map ManagesieveInAuthStatus.plain
  else match q with
    | [] => .fault
    | t :: q =>
      if tokenCasecmpString t (lit "\"PLAIN\"") then
        (reactSaslPlain platform q stream).map ManagesieveInAuthStatus.read
      else (reactNo (lit "Unknown SASL mechanism, mate") stream).map ManagesieveInAuthStatus.plain

/-- What `managesieve_in_capability_cmd` comes to. -/
def reactCapability (opt : Options) (q : Queue) (tlsFlags tlsState : Flag) (stream : List Byte) :
    Reaction Int :=
  if q.length ≠ 0 then reactNo (lit "Too many arguments, expected CAPABILITY, mate") stream
  else match managesieveCapabilityMsg opt tlsFlags tlsState (lit "CAPABILITY completed, mate") with
    | none => .fault
    | some message => reactRaw message stream

/-- What `managesieve_in_logout_cmd` comes to. -/
def reactLogout (q : Queue) (stream : List Byte) : Reaction Int :=
  if q.length = 0 then reactOk (lit "LOGOUT completed, mate") stream
  else reactNo (lit "Too many arguments, expected LOGOUT, mate") stream

/-- What the string of a NOOP comes to. -/
def reactTag (w : AcapTokenWrapperStatus) (stream : List Byte) : Reaction Int :=
  if !w.isString then reactNo (lit "Invalid AUTHENTICATE PLAIN challenge, mate") stream
  else match w.str with
    | none => .fault
    | some str => if str.Broken then reactRaw (noopLine str) stream else .moved 0 [] stream

/-- What `managesieve_in_noop_cmd_str` comes to. -/
def reactNoopStr (platform : Platform) (t : Token) (stream : List Byte) : Reaction Int :=
  .reads reactTag (scanString platform t [] stream)

/-- What `managesieve_in_noop_cmd` comes to. -/
def reactNoop (platform : Platform) (q : Queue) (stream : List Byte) : Reaction Int :=
  match q with
  | [] => reactOk (lit "NOOP completed, mate") stream
  | [t] => reactNoopStr platform t stream
  | _ => reactNo (lit "Too many arguments, expected NOOP [String], mate") stream

/-- What `managesieve_in_starttls_cmd` comes to. -/
def reactStarttls (q : Queue) (stream : List Byte) : Reaction Int :=
  if q.length ≠ 0 then reactNo (lit "Too many arguments, expected STARTTLS, mate") stream
  else reactOk (lit "Begin TLS negotiation, mate") stream

/-- The status of a round whose command ended with OK. -/
def ended (leave status : Int) : ManagesieveInAuthStatus :=
  .plain (if status = 0 then leave else status)

/-- What `managesieve_in_get_auth_loop` comes to on a connection of this type. -/
def react (opt : Options) (platform : Platform) (tlsFlags tlsState : Flag) (type : IoType)
    (stream : List Byte) : Reaction ManagesieveInAuthStatus :=
  match scanLine tokenImap4 0 stream with
  | none => .starved
  | some ([], _) => .fault
  | some (t :: q, rest) =>
    if tokenCasecmpString t (lit "AUTHENTICATE") then
      (reactAuthenticate platform q rest).map ManagesieveInAuthStatus.read
    else if tokenCasecmpString t (lit "CAPABILITY") then
      (reactCapability opt q tlsFlags tlsState rest).map ManagesieveInAuthStatus.plain
    else if tokenCasecmpString t (lit "LOGOUT") then (reactLogout q rest).map (ended 2)
    else if tokenCasecmpString t (lit "NOOP") then (reactNoop platform q rest).map ManagesieveInAuthStatus.plain
    else if (tlsFlags.has sslModeTlsListen && decide (type ≠ .ssl)) &&
        tokenCasecmpString t (lit "STARTTLS") then (reactStarttls q rest).map (ended 3)
    else (reactNo (lit "Unknown command, mate") rest).map fun _ => .plain 0

/-! ## Commands in a talk -/

section Commands

variable (opt : Options) (platform : Platform) (tlsFlags tlsState : Flag) {fuel : Nat} {t : Talk}
  (writable : t.Writable) (enough : t.stream.length < fuel)

/-- The reasons that are given for an invalid challenge are short. -/
theorem reason_short {challenge reason : CString}
    (invalid : saslPlainChallengeDecode platform challenge = .invalid reason) : Short reason := by
  have rest {authorisationId : Option CString} {content : List Byte}
      (invalid : saslPlainDecodeRest platform authorisationId content = .invalid reason) :
      Short reason := by
    unfold saslPlainDecodeRest at invalid
    split at invalid
    · rw [AuthStatus.invalid.injEq] at invalid
      rw [← invalid]
      exact sieveTexts_short (by simp [sieveTexts])
    · dsimp only at invalid
      split at invalid
      · simp at invalid
      · split at invalid
        · rw [AuthStatus.invalid.injEq] at invalid
          rw [← invalid]
          exact sieveTexts_short (by simp [sieveTexts])
        · split at invalid
          · rw [AuthStatus.invalid.injEq] at invalid
            rw [← invalid]
            exact sieveTexts_short (by simp [sieveTexts])
          · split at invalid
            · rw [AuthStatus.invalid.injEq] at invalid
              rw [← invalid]
              exact sieveTexts_short (by simp [sieveTexts])
            · simp at invalid
  unfold saslPlainChallengeDecode at invalid
  split at invalid
  · rw [AuthStatus.invalid.injEq] at invalid
    rw [← invalid]
    exact sieveTexts_short (by simp [sieveTexts])
  · rw [AuthStatus.invalid.injEq] at invalid
    rw [← invalid]
    exact sieveTexts_short (by simp [sieveTexts])
  · split at invalid
    · dsimp only at invalid
      split at invalid
      · simp at invalid
      · split at invalid
        · simp at invalid
        · exact rest invalid
    · exact rest invalid

include writable enough

/-- A string is read, and what comes after it follows. -/
theorem reads_reacts {α : Type} {failed : α} (token : Token) (q : Queue)
    {reaction : AcapTokenWrapperStatus → List Byte → Reaction α}
    {next : AcapTokenWrapperStatus → Dialogue α}
    (after : ∀ (w : AcapTokenWrapperStatus) (t' : Talk), t'.Writable →
      t'.Reacts failed (reaction w t'.stream) ((next w).run Talk.serverStep fuel t')) :
    t.Reacts failed (.reads reaction (scanString platform token q t.stream))
      ((do
        let w ← acapTokenWrapper platform (token :: q)
        if w.status = -2 then return failed else next w : Dialogue α).run
          Talk.serverStep fuel t) := by
  have read := run_scanString platform token q enough
  cases scanned : scanString platform token q t.stream with
  | none =>
    rw [scanned] at read
    have ⟨w, t', run, down, starves⟩ := read
    have stopped : ((do
        let w ← acapTokenWrapper platform (token :: q)
        if w.status = -2 then return failed else next w : Dialogue α).run
          Talk.serverStep fuel t) = .done failed t' := by
      rw [run_bind, run, Outcome.next_done, run_ite, if_pos down]
      rfl
    exact ⟨t', stopped, starves⟩
  | some found =>
    have ⟨w, rest⟩ := found
    rw [scanned] at read
    have ⟨t', run, moves⟩ := read
    have left := moves.stream
    subst left
    rw [run_bind, run, Outcome.next_done, run_ite, if_neg (scanString_status scanned)]
    exact (after w t' (moves.writable writable)).after moves

/-- A challenge is read, and refused or taken. -/
theorem saslPlain_reacts (q : Queue) :
    t.Reacts (.plain (-3)) (reactSaslPlain platform q t.stream)
      ((managesieveInSaslPlain platform q).run Talk.serverStep fuel t) := by
  unfold managesieveInSaslPlain
  match q with
  | [] =>
    rw [if_pos (show ([] : Queue).length ≠ 1 by decide)]
    exact (no_reacts _ (sieveTexts_short (by simp [sieveTexts])) fuel writable).map ManagesieveInAuthStatus.plain
  | _ :: _ :: _ =>
    rw [if_pos (by simp)]
    exact (no_reacts _ (sieveTexts_short (by simp [sieveTexts])) fuel writable).map ManagesieveInAuthStatus.plain
  | [token] =>
    rw [if_neg (by simp)]
    apply reads_reacts platform writable enough token []
    intro w t' still
    unfold reactChallenge
    by_cases other : (!w.isString) = true
    · rw [if_pos other, if_pos other]
      exact (no_reacts _ (sieveTexts_short (by simp [sieveTexts])) fuel still).map ManagesieveInAuthStatus.plain
    · rw [if_neg other, if_neg other]
      cases w.str with
      | none => exact ⟨_, _, rfl⟩
      | some str =>
        dsimp only
        cases decoded : saslPlainChallengeDecode platform str with
        | ok auth => exact ⟨t', rfl, .refl t'⟩
        | invalid reason =>
          exact (no_reacts _ (reason_short platform decoded) fuel still).map
            ManagesieveInAuthStatus.plain
        | error => exact ⟨t', rfl, .refl t'⟩
        | beyond => exact ⟨_, _, rfl⟩

theorem authenticate_reacts (q : Queue) :
    t.Reacts (.plain (-3)) (reactAuthenticate platform q t.stream)
      ((managesieveInAuthenticateCmd platform q).run Talk.serverStep fuel t) := by
  unfold managesieveInAuthenticateCmd reactAuthenticate
  by_cases count : q.length = 0 ∨ 2 < q.length
  · rw [if_pos count, if_pos count]
    exact (no_reacts _ (sieveTexts_short (by simp [sieveTexts])) fuel writable).map ManagesieveInAuthStatus.plain
  · rw [if_neg count, if_neg count]
    cases q with
    | nil => simp at count
    | cons token q =>
      dsimp only
      by_cases plain : tokenCasecmpString token (lit "\"PLAIN\"") = true
      · rw [if_pos plain, if_pos plain]
        exact (saslPlain_reacts platform writable enough q).map ManagesieveInAuthStatus.read
      · rw [if_neg plain, if_neg plain]
        exact (no_reacts _ (sieveTexts_short (by simp [sieveTexts])) fuel writable).map ManagesieveInAuthStatus.plain

theorem noopStr_reacts (token : Token) :
    t.Reacts (-3) (reactNoopStr platform token t.stream)
      ((managesieveInNoopCmdStr platform [token]).run Talk.serverStep fuel t) := by
  apply reads_reacts platform writable enough token []
  intro w t' still
  unfold reactTag
  by_cases other : (!w.isString) = true
  · rw [if_pos other, if_pos other]
    exact no_reacts _ (sieveTexts_short (by simp [sieveTexts])) fuel still
  · rw [if_neg other, if_neg other]
    cases w.str with
    | none => exact ⟨_, _, rfl⟩
    | some str => exact tag_reacts str fuel still

theorem noop_reacts (q : Queue) :
    t.Reacts (-3) (reactNoop platform q t.stream)
      ((managesieveInNoopCmd platform q).run Talk.serverStep fuel t) := by
  unfold managesieveInNoopCmd
  match q with
  | [] => exact ok_reacts _ (sieveTexts_short (by simp [sieveTexts])) fuel writable
  | [token] => exact noopStr_reacts platform writable enough token
  | _ :: _ :: _ =>
    rw [if_neg (by simp), if_neg (by simp)]
    exact no_reacts _ (sieveTexts_short (by simp [sieveTexts])) fuel writable

omit enough

theorem capability_reacts (q : Queue) :
    t.Reacts (-3) (reactCapability opt q tlsFlags tlsState t.stream)
      ((managesieveInCapabilityCmd opt q tlsFlags tlsState).run Talk.serverStep fuel t) := by
  unfold managesieveInCapabilityCmd reactCapability
  by_cases extra : q.length ≠ 0
  · rw [if_pos extra, if_pos extra]
    exact no_reacts _ (sieveTexts_short (by simp [sieveTexts])) fuel writable
  · rw [if_neg extra, if_neg extra]
    cases managesieveCapabilityMsg opt tlsFlags tlsState (lit "CAPABILITY completed, mate") with
    | none => exact ⟨_, _, rfl⟩
    | some message =>
      exact sent_reacts message (-3) fuel writable

theorem logout_reacts (q : Queue) :
    t.Reacts (-3) (reactLogout q t.stream)
      ((managesieveInLogoutCmd q).run Talk.serverStep fuel t) := by
  unfold managesieveInLogoutCmd reactLogout
  by_cases none_ : q.length = 0
  · rw [if_pos none_, if_pos none_]
    exact ok_reacts _ (sieveTexts_short (by simp [sieveTexts])) fuel writable
  · rw [if_neg none_, if_neg none_]
    exact no_reacts _ (sieveTexts_short (by simp [sieveTexts])) fuel writable

theorem starttls_reacts (q : Queue) :
    t.Reacts (-3) (reactStarttls q t.stream)
      ((managesieveInStarttlsCmd q).run Talk.serverStep fuel t) := by
  unfold managesieveInStarttlsCmd reactStarttls
  by_cases extra : q.length ≠ 0
  · rw [if_pos extra, if_pos extra]
    exact no_reacts _ (sieveTexts_short (by simp [sieveTexts])) fuel writable
  · rw [if_neg extra, if_neg extra]
    exact ok_reacts _ (sieveTexts_short (by simp [sieveTexts])) fuel writable

theorem unknown_reacts :
    t.Reacts (.plain (-3)) ((reactNo (lit "Unknown command, mate") t.stream).map fun _ => .plain 0)
      ((do
        if (← managesieveNo (lit "Unknown command, mate")) < 0 then return .plain (-1)
        else return .plain 0 : Dialogue ManagesieveInAuthStatus).run Talk.serverStep fuel t) := by
  have short : Short (lit "Unknown command, mate") := sieveTexts_short (by simp [sieveTexts])
  have run := run_status "NO" (by decide) short fuel writable
  have answered : (do
        if (← managesieveNo (lit "Unknown command, mate")) < 0 then return .plain (-1)
        else return .plain 0 : Dialogue ManagesieveInAuthStatus).run Talk.serverStep fuel t =
          .done (.plain 0) (t.say (statusLine "NO" (lit "Unknown command, mate"))).2 := by
    change ((managesieveWrite perditionServer (lit "NO") none
      (some (lit "Unknown command, mate"))).run Talk.serverStep fuel t).next _ = _
    rw [run]
    rfl
  exact ⟨_, answered, t.moves_say _⟩

omit writable in
/-- The connection with the client knows the command STARTTLS. -/
theorem run_starttlsKnown :
    (managesieveStarttlsKnown tlsFlags).run Talk.serverStep fuel t =
      .done (tlsFlags.has sslModeTlsListen && decide (t.type .server ≠ .ssl)) t := by
  unfold managesieveStarttlsKnown
  by_cases listen : tlsFlags.has sslModeTlsListen = true
  · rw [if_pos listen, listen]
    rfl
  · rw [if_neg listen, Bool.not_eq_true _ |>.mp listen]
    rfl

include enough

/-- A round answers its command. -/
theorem loop_reacts :
    t.Reacts (.plain (-3)) (react opt platform tlsFlags tlsState (t.type .server) t.stream)
      ((managesieveInGetAuthLoop opt platform tlsFlags tlsState).run Talk.serverStep fuel t) := by
  have read := @Talk.run_readLine tokenImap4 lineFlag_imap4 0 fuel t enough
  rw [Talk.run_server] at read
  unfold managesieveInGetAuthLoop react
  rw [run_bind, read]
  cases scanned : scanLine tokenImap4 0 t.stream with
  | none => exact ⟨t.starved, rfl, t.starves_starved⟩
  | some found =>
    have ⟨q, rest⟩ := found
    have moves := t.moves_advance rest
    have still := moves.writable writable
    have room : (t.advance rest).stream.length < fuel := by
      have shorter := scanLine_shorter scanned
      change rest.length < fuel
      omega
    cases q with
    | nil => exact absurd rfl (scanLine_ne_nil scanned)
    | cons token q =>
      change t.Reacts _ _ (Program.run Talk.serverStep fuel
        (if tokenCasecmpString token (lit "AUTHENTICATE") then _ else _) (t.advance rest))
      have known : (managesieveStarttlsKnown tlsFlags).run Talk.serverStep fuel (t.advance rest) =
          .done (tlsFlags.has sslModeTlsListen && decide (t.type .server ≠ .ssl))
            (t.advance rest) :=
        run_starttlsKnown tlsFlags
      rw [run_ite]
      dsimp only
      by_cases authenticate : tokenCasecmpString token (lit "AUTHENTICATE") = true
      · rw [if_pos authenticate, if_pos authenticate]
        exact ((authenticate_reacts platform still room q).map
          ManagesieveInAuthStatus.read).after moves
      rw [if_neg authenticate, if_neg authenticate, run_ite]
      by_cases capability : tokenCasecmpString token (lit "CAPABILITY") = true
      · rw [if_pos capability, if_pos capability]
        exact ((capability_reacts opt tlsFlags tlsState still q).map
          ManagesieveInAuthStatus.plain).after moves
      rw [if_neg capability, if_neg capability, run_ite]
      by_cases logout : tokenCasecmpString token (lit "LOGOUT") = true
      · rw [if_pos logout, if_pos logout]
        exact ((logout_reacts still q).map (ended 2)).after moves
      rw [if_neg logout, if_neg logout, run_ite]
      by_cases noop : tokenCasecmpString token (lit "NOOP") = true
      · rw [if_pos noop, if_pos noop]
        exact ((noop_reacts platform still room q).map ManagesieveInAuthStatus.plain).after moves
      rw [if_neg noop, if_neg noop, run_bind, known, Outcome.next_done, run_ite]
      by_cases starttls : (tlsFlags.has sslModeTlsListen && decide (t.type .server ≠ .ssl) &&
          tokenCasecmpString token (lit "STARTTLS")) = true
      · rw [if_pos starttls, if_pos starttls]
        exact ((starttls_reacts still q).map (ended 3)).after moves
      rw [if_neg starttls, if_neg starttls]
      exact (unknown_reacts still).after moves

end Commands

end Perdition
