import Perdition.Verif.Imap4Chain
import Perdition.Verif.SieveCredentials

/-!
# ManageSieve behind ManageSieve

One instance of the program logs in to another by `AUTHENTICATE "PLAIN"`. It reads the capabilities of the
other's greeting, and the other has the authorisation id, the user name and the password that it was given.
-/
namespace Perdition

open Lib Program

/-! ## Capabilities between quotes -/

section Capabilities

open Sieve

variable {platform : Platform} {fuel : Nat} {history history' : List (Byte ⊕ Byte)}
  {rest rest' : List Byte}

/-- All strings of a capability are sent between quotes. -/
def Sieve.Line.Quoted (line : Line) : Prop := ∀ s ∈ line.strings, s.form = .quoted

/-- The rest of such a line is all of it. -/
theorem restBack_quoted {values : List Str} (quoted : ∀ s ∈ values, s.form = .quoted) :
    restBack values = [] := by
  induction values with
  | nil => rfl
  | cons s values ih =>
    obtain ⟨first, others⟩ := List.forall_mem_cons.mp quoted
    rw [restBack, first]
    exact ih others

/-- A string between quotes is taken from its line, and nothing more is read. -/
theorem comes_quoted (state : CapabilityState) {s : Str} {values : List Str} (quoted : s.form = .quoted)
    (whole : s.Whole platform true (!values.isEmpty)) :
    (managesieveOutString platform state (lineTokens (words true (front s values)))).Comes fuel history
      rest (.inl (state.read s.read (pending true values))) history rest := by
  obtain ⟨flag, q, tokens, others⟩ := tokens_quoted quoted whole
  have accepted := ((Str.whole_quoted quoted).mp whole).1
  have status : acapTokenStatus platform ⟨quotedWire s.content, flag⟩ =
      (.quoted, (escape s.content).length) := by
    rw [quotedWire] at accepted ⊢
    rw [acapTokenStatus_quote, if_pos accepted]
    simp
  have str : strnToStr ((quotedWire s.content).drop 1)
      ((Token.mk (quotedWire s.content) flag).len - 2) = s.read := by
    simp [strnToStr, quotedWire, Token.len, Str.read, quoted]
  rw [managesieveOutString, tokens, acapTokenWrapper, status]
  dsimp only
  rw [str, others]
  exact comes_pure _

/-- The values of a capability are taken from its line. -/
theorem comes_values {values : List Str} {rounds : Nat} {a : Int} (status : Nat) (sasl : Bool)
    (quoted : ∀ s ∈ values, s.form = .quoted) (whole : AllWhole platform true values)
    (later : LoopComes (Sieve.round platform) fuel rounds ⟨none, valuesStatus values status sasl, true, false⟩
      history rest a history' rest') :
    LoopComes (Sieve.round platform) fuel (rounds + values.length) (left true values status sasl) history rest
      a history' rest' := by
  induction values generalizing status with
  | nil => simpa [left, pending, valuesStatus] using later
  | cons s values ih =>
    obtain ⟨first, others⟩ := List.forall_mem_cons.mp quoted
    have keeps : s.quotes true = true := by rw [Str.quotes, first]
    obtain ⟨one, more⟩ := whole
    rw [keeps] at more
    rw [← valuesStatus_cons] at later
    have next := ih (if sasl then status ||| protocolSSaslPlain else status) others more later
    have begun := @comes_quoted platform fuel history rest (left true (s :: values) status sasl) s values
      first one
    rw [read_value] at begun
    rw [List.length_cons, ← Nat.add_assoc]
    exact comes_again begun next

/-- At the start of a line it is read first. -/
theorem comes_roundLine {state : CapabilityState} {line : List Byte} {r : CapabilityState ⊕ Int}
    (start : state.q = none) (noLf : lf ∉ line) (enough : (line ++ lf :: rest).length < fuel)
    (strings : (managesieveOutString platform state (lineTokens (words true line))).Comes fuel
      (history ++ heard (line ++ [lf])) rest r history' rest') :
    (Sieve.round platform state).Comes fuel history (line ++ lf :: rest) r history' rest' := by
  have read := @comes_line fuel history rest tokenImap4 lineFlag_imap4 line noLf enough
  rw [show tokenImap4.has tokenImap4 = true by decide] at read
  rw [Sieve.round, start]
  exact comes_bind read strings

/-- A capability between quotes is read. -/
theorem comes_capabilityLine {line : Line} {rounds : Nat} {a : Int} (starttls sasl : Bool)
    (quoted : line.Quoted) (whole : line.Whole platform) (enough : (line.wire ++ rest).length < fuel)
    (later : LoopComes (Sieve.round platform) fuel rounds
      (lineStart (bits (starttls || line.starttls) (sasl || line.sasl)))
      (history ++ heard line.wire) rest a history' rest') :
    LoopComes (Sieve.round platform) fuel (rounds + line.strings.length) (lineStart (bits starttls sasl)) history
      (line.wire ++ rest) a history' rest' := by
  obtain ⟨first, others⟩ := List.forall_mem_cons.mp quoted
  obtain ⟨one, more⟩ := whole
  have keeps : line.name.quotes true = true := by rw [Str.quotes, first]
  have none_ : back line.name line.values = [] := by rw [back, first]; exact restBack_quoted others
  have shape : line.wire = front line.name line.values ++ [lf] := by
    rw [Line.wire, wire_split, none_]
  rw [keeps] at more
  rw [shape, List.append_assoc, List.singleton_append] at enough ⊢
  rw [shape] at later
  have values := comes_values
    (if line.name.read = lit "STARTTLS" then bits starttls sasl ||| protocolSStarttls
      else bits starttls sasl) (decide (line.name.read = lit "SASL")) others more
    (show LoopComes (Sieve.round platform) fuel rounds _ _ _ _ _ _ by rw [← bits_line] at later; exact later)
  have string := @comes_quoted platform fuel (history ++ heard (front line.name line.values ++ [lf])) rest
    (lineStart (bits starttls sasl)) line.name line.values first one
  rw [lineStart, read_name] at string
  rw [Line.strings, List.length_cons, ← Nat.add_assoc]
  exact comes_again (comes_roundLine rfl (noLf_front _ _) enough string) values

/-- Capabilities between quotes are read. -/
theorem comes_capabilityLines {lines : List Line} {rounds : Nat} {a : Int} (starttls sasl : Bool)
    (quoted : ∀ line ∈ lines, line.Quoted) (whole : ∀ line ∈ lines, line.Whole platform)
    (enough : (linesWire lines ++ rest).length < fuel)
    (later : LoopComes (Sieve.round platform) fuel rounds
      (lineStart (bits (starttls || lines.any Line.starttls) (sasl || lines.any Line.sasl)))
      (history ++ heard (linesWire lines)) rest a history' rest') :
    LoopComes (Sieve.round platform) fuel (rounds + count lines) (lineStart (bits starttls sasl)) history
      (linesWire lines ++ rest) a history' rest' := by
  induction lines generalizing starttls sasl history with
  | nil => simpa [linesWire, count, heard] using later
  | cons line lines ih =>
    obtain ⟨first, others⟩ := List.forall_mem_cons.mp quoted
    obtain ⟨one, more⟩ := List.forall_mem_cons.mp whole
    have shape : linesWire (line :: lines) = line.wire ++ linesWire lines := List.flatMap_cons
    rw [shape, List.append_assoc] at enough ⊢
    rw [shape, heard, List.map_append, ← heard, ← heard, ← List.append_assoc, List.any_cons, List.any_cons,
      ← Bool.or_assoc, ← Bool.or_assoc] at later
    have shorter : (linesWire lines ++ rest).length < fuel := by
      rw [List.length_append] at enough
      omega
    have total : rounds + count (line :: lines) = rounds + count lines + line.strings.length := by
      simp only [count, List.map_cons, List.sum_cons]
      omega
    rw [total]
    exact comes_capabilityLine starttls sasl first one enough
      (ih (starttls || line.starttls) (sasl || line.sasl) others more shorter later)

/-- The tokens of the line with the status. -/
theorem tokens_ending (r : Sieve.Response) : ∃ flag q,
    lineTokens (words true (r.ending.word ++ r.text)) = ⟨r.ending.word, flag⟩ :: q := by
  have plain : ∀ b ∈ r.ending.word, b ≠ space ∧ b ≠ dquote := by
    cases r.ending <;> decide +kernel
  have noCr : cr ∉ r.ending.word := by cases r.ending <;> decide
  have short : r.ending.word.length < maxLineLength := by cases r.ending <;> decide
  have still := openAfter_plain true false plain
  rcases r.setOff with none_ | ⟨rest, some_⟩
  · rw [none_, (words_last true noCr short).1 (by rw [still]; rfl)]
    exact ⟨_, _, rfl⟩
  · rw [some_, (words_first true noCr short rest).1 ⟨false, still, rfl⟩, lineTokens_cons (words_ne_nil _ _)]
    exact ⟨_, _, rfl⟩

/-- The line with the status ends the capabilities. -/
theorem comes_ending (r : Sieve.Response) (status : Nat)
    (enough : (r.ending.word ++ r.text ++ [lf] ++ rest).length < fuel) :
    (Sieve.round platform (lineStart status)).Comes fuel history (r.ending.word ++ r.text ++ [lf] ++ rest)
      (.inr (if r.ending = .ok then (status : Int) else 0))
      (history ++ heard (r.ending.word ++ r.text ++ [lf])) rest := by
  have noLf : lf ∉ r.ending.word ++ r.text := by
    rw [List.mem_append, not_or]
    exact ⟨by cases r.ending <;> decide, r.line⟩
  rw [List.append_assoc _ [lf], List.singleton_append] at enough ⊢
  refine comes_roundLine rfl noLf enough ?_
  obtain ⟨flag, q, tokens⟩ := tokens_ending r
  have str : strnToStr r.ending.word (Token.mk r.ending.word flag).len = cstr r.ending.word := by
    simp [strnToStr, Token.len]
  rw [managesieveOutString, tokens, acapTokenWrapper, acapTokenStatus_word]
  dsimp only
  rw [str]
  have word : cstr r.ending.word = lit "OK" ↔ r.ending = .ok := by
    cases r.ending <;> decide
  simp only [← word]
  exact comes_pure _

/-- A response with its strings between quotes is read. -/
theorem comes_capabilities (r : Sieve.Response) (quoted : ∀ line ∈ r.lines, line.Quoted)
    (whole : ∀ line ∈ r.lines, line.Whole platform) (enough : (r.wire ++ rest).length < fuel) :
    (managesieveOutCapability platform).Comes fuel history (r.wire ++ rest)
      (if r.ending = .ok then (bits (r.lines.any Line.starttls) (r.lines.any Line.sasl) : Int) else 0)
      (history ++ heard r.wire) rest := by
  have lines := count_length r.lines
  have size := enough
  simp only [Response.wire, List.length_append, List.length_singleton] at size
  obtain ⟨rounds, total⟩ : ∃ rounds, fuel = rounds + 1 + count r.lines :=
    ⟨fuel - 1 - count r.lines, by omega⟩
  have last := @comes_ending platform fuel (history ++ heard (linesWire r.lines)) rest r
    (bits (r.lines.any Line.starttls) (r.lines.any Line.sasl))
    (by simp only [List.length_append, List.length_singleton]; omega)
  have stream : r.wire ++ rest =
      linesWire r.lines ++ (r.ending.word ++ r.text ++ [lf] ++ rest) := List.append_assoc _ _ _
  have turns : history ++ heard r.wire =
      history ++ heard (linesWire r.lines) ++ heard (r.ending.word ++ r.text ++ [lf]) := by
    rw [Response.wire, heard, List.map_append, ← heard, ← heard, ← List.append_assoc]
  rw [stream] at enough ⊢
  rw [turns]
  have rounds_ := comes_capabilityLines false false quoted whole enough
    (show LoopComes (Sieve.round platform) fuel (rounds + 1) _ _ _ _ _ _ from comes_last last)
  rw [← total] at rounds_
  exact comes_loop rounds_

end Capabilities

/-! ## Messages -/

/-- A command or a reply with a string. -/
def sieveLine (command message : CString) : List Byte :=
  command.content ++ space :: dquote :: (message.content ++ dquote :: crlf)

section Messages

variable {fuel : Nat} {history : List (Byte ⊕ Byte)} {rest : List Byte}

theorem Talk.Passed.writable {t : Talk} (passed : t.Passed history rest) : t.Writable := by
  rw [Talk.Writable, passed.writes]
  simp

/-- A message that fits is sent as it is. -/
theorem comes_raw {message : CString} (fits : message.length ≤ maxText) :
    ((managesieveWriteRaw message).with .server).Comes fuel history rest 0
      (history ++ said (message.content ++ crlf)) rest := by
  intro t passed
  obtain ⟨ok, after⟩ := passed.say (message.content ++ crlf)
  refine ⟨_, ?_, after⟩
  rw [Talk.run_server, Talk.run_raw, rawSends_eq, if_pos fits]
  simp only [Talk.spoken, ok, if_true]

/-- A string without line ends is sent between quotes. -/
theorem comes_sieveWrite (flag : Flag) {command message : CString} (whole : ¬ message.Broken)
    (fits : command.length + message.length + 3 ≤ maxText) :
    ((managesieveWrite flag command none (some message)).with .server).Comes fuel history rest 0
      (history ++ said (sieveLine command message)) rest := by
  intro t passed
  obtain ⟨ok, after⟩ := passed.say (sieveLine command message)
  refine ⟨_, ?_, after⟩
  obtain ⟨quoted, none_⟩ := acapFromStr_quoted whole flag
  have line : firstLine flag command (some message) = joined command [(acapFromStr message flag).a] := rfl
  have content : (firstLine flag command (some message)).content ++ crlf = sieveLine command message := by
    simp [line, content_joined, quoted, sieveLine]
  have room : (firstLine flag command (some message)).length ≤ maxText := by
    have size := congrArg List.length content
    have length : (firstLine flag command (some message)).length =
      (firstLine flag command (some message)).content.length := rfl
    have command_ : command.length = command.content.length := rfl
    have message_ : message.length = message.content.length := rfl
    simp only [sieveLine, crlf, List.length_append, List.length_cons, List.length_nil] at size
    omega
  have body : bodyLine flag (some message) = none := none_
  rw [Talk.run_server, run_plain _ _ _ _ passed.writable, rawSends_eq, if_pos room, content, body]
  simp only [Talk.spoken, ok, if_true, Outcome.next_done]
  rfl

end Messages

/-! ## The client's side -/

section Server

variable {opt : Options} {platform : Platform} {tlsFlags tlsState : Flag} {fuel : Nat}
  {history : List (Byte ⊕ Byte)} {rest text : List Byte} {auth : Auth}

/-- A challenge between quotes is taken. -/
theorem comes_challenge (plain : ∀ b ∈ text, Lib.Base64.isText b = true) (taken : text.length ≤ 1022)
    (decoded : saslPlainChallengeDecode platform (cstr text) = .ok auth) :
    ((managesieveInSaslPlain platform [⟨dquote :: (text ++ [dquote]), tokenEol⟩]).with .server).Comes
      fuel history rest ⟨some auth, 0⟩ history rest := by
  have status := acapTokenStatus_quote platform (text ++ [dquote]) tokenEol
  rw [acapStrnIsQuoted_text platform plain, if_pos (by simpa using taken)] at status
  have content : strnToStr ((dquote :: (text ++ [dquote])).drop 1)
      ((dquote :: (text ++ [dquote])).length - 2) = cstr text := by
    simp [strnToStr]
  have wrapper : acapTokenWrapper platform [⟨dquote :: (text ++ [dquote]), tokenEol⟩] =
      pure ⟨0, .quoted, none, some (cstr text)⟩ := by
    rw [acapTokenWrapper, status, ← content]
    rfl
  rw [managesieveInSaslPlain, if_neg (by simp), wrapper]
  refine comes_bind (comes_pure _) ?_
  dsimp only
  rw [if_neg (by decide), if_neg (by simp [AcapTokenWrapperStatus.isString]), decoded]
  exact comes_pure _

/-- The round that reads `AUTHENTICATE`. -/
theorem comes_authenticateCmd (plain : ∀ b ∈ text, Lib.Base64.isText b = true)
    (taken : text.length ≤ 1022)
    (decoded : saslPlainChallengeDecode platform (cstr text) = .ok auth)
    (enough : (authenticateCommand .quoted text ++ rest).length < fuel) :
    ((managesieveInGetAuthLoop opt platform tlsFlags tlsState).with .server).Comes fuel history
      (authenticateCommand .quoted text ++ rest) ⟨some auth, 1⟩
      (history ++ heard (authenticateCommand .quoted text)) rest := by
  have word := word_plain plain .quoted
  have shape : authenticateCommand .quoted text =
      bytes "AUTHENTICATE \"PLAIN\" " ++ ((dquote :: (text ++ [dquote])) ++ [cr]) ++ [lf] := by
    simp [authenticateCommand, Sieve.Form.argument, crlf]
  have single : lf ∉ bytes "AUTHENTICATE \"PLAIN\" " ++ ((dquote :: (text ++ [dquote])) ++ [cr]) := by
    have opening : lf ∉ bytes "AUTHENTICATE \"PLAIN\" " := by decide
    have inner : lf ∉ dquote :: (text ++ [dquote]) := fun member => (word lf member).2.1 rfl
    rw [List.mem_append, List.mem_append, List.mem_singleton, not_or, not_or]
    exact ⟨opening, inner, by decide⟩
  have short : (dquote :: (text ++ [dquote])).length < maxLineLength := by
    simp only [List.length_cons, List.length_append, List.length_nil, maxLineLength]
    omega
  have tokens : lineTokens (words (tokenImap4.has tokenImap4)
      (bytes "AUTHENTICATE \"PLAIN\" " ++ ((dquote :: (text ++ [dquote])) ++ [cr]))) =
      [⟨bytes "AUTHENTICATE", tokenNone⟩, ⟨bytes "\"PLAIN\"", tokenNone⟩,
        ⟨dquote :: (text ++ [dquote]), tokenEol⟩] := by
    have argument : words true ((dquote :: (text ++ [dquote])) ++ [cr]) = [dquote :: (text ++ [dquote])] :=
      wordsFrom_word (fun member => (word cr member).1 rfl) (fun member => (word space member).2.2 rfl)
        [] false (by rw [List.length_nil, Nat.zero_add]; exact short)
    rw [show tokenImap4.has tokenImap4 = true by decide, words_authenticate, argument]
    rfl
  have commands : tokenCasecmpString ⟨bytes "AUTHENTICATE", tokenNone⟩ (lit "AUTHENTICATE") = true ∧
      tokenCasecmpString ⟨bytes "\"PLAIN\"", tokenNone⟩ (lit "\"PLAIN\"") = true := by
    decide +kernel
  rw [shape, List.append_assoc, List.singleton_append] at enough
  rw [shape, List.append_assoc _ [lf], List.singleton_append]
  have line := @comes_line fuel history rest tokenImap4 lineFlag_imap4 _ single enough
  rw [tokens] at line
  have challenge := @comes_challenge platform fuel (history ++ heard (bytes "AUTHENTICATE \"PLAIN\" " ++
    ((dquote :: (text ++ [dquote])) ++ [cr]) ++ [lf])) rest text auth plain taken decoded
  refine comes_bind line ?_
  change ((if tokenCasecmpString ⟨bytes "AUTHENTICATE", tokenNone⟩ (lit "AUTHENTICATE") then _ else _ :
    Dialogue ManagesieveInAuthStatus).with .server).Comes _ _ _ _ _ _
  rw [if_pos commands.1, managesieveInAuthenticateCmd, if_neg (by simp), if_pos commands.2]
  exact comes_bind (comes_bind challenge (comes_pure _)) (comes_pure _)

end Server

/-! ## The conversation -/

/-- What comes before the line feed of a reply. -/
def sieveFront (command message : CString) : List Byte :=
  command.content ++ space :: dquote :: (message.content ++ [dquote, cr])

theorem sieveLine_front (command message : CString) :
    sieveLine command message = sieveFront command message ++ [lf] := by
  simp [sieveLine, sieveFront, crlf]

/-- A login as the server has it. -/
def sieveLogin (greeting challenge : List Byte) (verdict : CString × CString) : List (Byte ⊕ Byte) :=
  said greeting ++ heard (authenticateCommand .quoted challenge) ++
    said (sieveLine verdict.1 verdict.2)

/-- A text that a reply carries. -/
def SieveText (text : CString) : Prop := ¬ text.Broken ∧ text.length + 64 ≤ maxText

/-- The first words of replies. -/
def SieveStatus (status : CString) : Prop := status = lit "OK" ∨ status = lit "NO"

/-- They are solid words, and the program wants the first. -/
theorem SieveStatus.known {status : CString} (known : SieveStatus status) :
    SolidWord status.content ∧ status.length = 2 ∧
      tokenCmp (litToken "OK" tokenDontCare) ⟨status.content, tokenNone⟩ =
        decide (status = lit "OK") := by
  rcases known with same | same
  · rw [same]
    decide +kernel
  · rw [same]
    decide +kernel

theorem verdict_sieveStatus (opt : Options) (refusal : Option CString) :
    SieveStatus (Protocol.managesieve.verdict opt refusal).1 := by
  cases refusal with
  | none => exact .inl rfl
  | some reason => exact .inr rfl

/-- Capabilities that the other instance reads in a greeting: their strings are between quotes and are kept
whole, and SASL is one with a value. -/
structure Greeted (platform : Platform) (message : CString) (r : Sieve.Response) : Prop where
  /-- They are the greeting. -/
  wire : message.content ++ crlf = r.wire
  /-- It fits the write buffer. -/
  fits : message.length ≤ maxText
  /-- The strings are sent between quotes. -/
  quoted : ∀ line ∈ r.lines, line.Quoted
  /-- They are kept whole. -/
  whole : ∀ line ∈ r.lines, line.Whole platform
  /-- The greeting ends in OK. -/
  ok : r.ending = .ok
  /-- SASL is one of them. -/
  sasl : r.lines.any Sieve.Line.sasl = true

section Chain

variable {opt : Options} {platform : Platform} {fuel : Nat} {text : List Byte}
  {verdict : CString × CString}

/-- The server's half of a login. -/
theorem comes_sieveServes {refusal : Auth → Option CString} {auth : Auth} {tail message : CString}
    (decides : Protocol.managesieve.verdict opt (refusal auth) = verdict)
    (greets : greetingStr platform (lit "perdition ready on") = some tail)
    (built : managesieveCapabilityMsg opt opt.sslMode sslModeEmpty tail = some message)
    (fits : message.length ≤ maxText) (plain : ∀ b ∈ text, Lib.Base64.isText b = true)
    (taken : text.length ≤ 1022) (decoded : saslPlainChallengeDecode platform (cstr text) = .ok auth)
    (answers : SieveText verdict.2) (enough : (authenticateCommand .quoted text).length < fuel) :
    ((Protocol.managesieve.serves opt platform refusal).with .server).Comes fuel []
      (authenticateCommand .quoted text) (some ⟨0, some auth, none⟩)
      (sieveLogin (message.content ++ crlf) text verdict) [] := by
  obtain ⟨rounds, rfl⟩ : ∃ rounds, fuel = rounds + 1 := ⟨fuel - 1, by omega⟩
  have first : Protocol.managesieve.greeting opt platform = managesieveWriteRaw message := by
    rw [Protocol.greeting, greets]
    dsimp only
    rw [built]
  have greet := @comes_raw (rounds + 1) [] (authenticateCommand .quoted text) message fits
  have command := @comes_authenticateCmd opt platform opt.sslMode sslModeEmpty (rounds + 1)
    (said (message.content ++ crlf)) [] text auth plain taken decoded
    (by rw [List.append_nil]; exact enough)
  rw [List.append_nil] at command
  rw [Protocol.serves, first]
  refine comes_bind greet ?_
  change (((do
      let result ← Protocol.managesieve.inGetAuth opt platform opt.sslMode sslModeEmpty
      Protocol.managesieve.answers opt refusal result : Dialogue (Option InAuth)).with
        .server).Comes _ _ _ _ _ _)
  have getAuth : ((Protocol.managesieve.inGetAuth opt platform opt.sslMode sslModeEmpty).with
      .server).Comes (rounds + 1) (said (message.content ++ crlf)) (authenticateCommand .quoted text)
        ⟨0, some auth, none⟩
        (said (message.content ++ crlf) ++ heard (authenticateCommand .quoted text)) [] := by
    have post : managesieveStarttlsPost opt opt.sslMode sslModeEmpty = pure 0 := if_pos (by decide)
    rw [Protocol.inGetAuth, managesieveInGetAuth, post]
    refine comes_bind (comes_pure _) ?_
    exact comes_loop (comes_last (comes_bind command (comes_pure _)))
  refine comes_bind getAuth ?_
  change ((Protocol.managesieve.answers opt refusal ⟨0, some auth, none⟩).with .server).Comes _ _ _ _ _ _
  rw [Protocol.answers_credentials .managesieve rfl decides]
  have known := (decides ▸ verdict_sieveStatus opt _ : SieveStatus verdict.1).known
  exact comes_bind (comes_sieveWrite nullFlag answers.1 (by
    have := answers.2
    omega)) (comes_pure _)

/-- A response is read. -/
theorem comes_readOk {history : List (Byte ⊕ Byte)} {rest : List Byte} {status message : CString}
    (known : SieveStatus status) (given : ¬ message.Broken) {capture : Option Capture}
    (fits : Fits capture (sieveFront status message))
    (enough : (sieveLine status message ++ rest).length < fuel) :
    (readOk capture).Comes fuel history (sieveLine status message ++ rest)
      ⟨if status = lit "OK" then 1 else 0,
        lineTokens (words false (dquote :: (message.content ++ [dquote, cr]))),
        Capture.keep capture (sieveFront status message)⟩
      (history ++ heard (sieveLine status message)) rest := by
  obtain ⟨solid, -, compared⟩ := known.known
  have ⟨_, noLf⟩ := not_or.mp given
  have whole : lf ∉ sieveFront status message := by
    simp only [sieveFront, List.mem_append, List.mem_cons, not_or]
    exact ⟨solid.whole, by decide, by decide, noLf, by decide, by decide, by decide⟩
  have tokens : lineTokens (words (tokenPop3.has tokenImap4) (sieveFront status message)) =
      ⟨status.content, tokenNone⟩ ::
        lineTokens (words false (dquote :: (message.content ++ [dquote, cr]))) := by
    rw [show tokenPop3.has tokenImap4 = false by decide, sieveFront, solid.words,
      lineTokens_cons (words_ne_nil false _)]
  rw [sieveLine_front, List.append_assoc, List.singleton_append] at enough ⊢
  have line := @comes_readLine fuel history rest tokenPop3 lineFlag_pop3 capture _ whole fits enough
  rw [tokens] at line
  refine comes_bind line ?_
  dsimp only
  rw [compared]
  simp only [decide_eq_true_eq]
  exact comes_pure _

/-- The capabilities of the real server's greeting are read. -/
theorem comes_sieveOutSetup {message : CString} {r : Sieve.Response} (greeted : Greeted platform message r)
    (plain : opt.sslMode.has sslModeTlsOutgoing = false) {rest : List Byte}
    (enough : (r.wire ++ rest).length < fuel) (tag : Token) : ∃ status : Nat,
    1 ≤ status ∧ status &&& protocolSSaslPlain = protocolSSaslPlain ∧
    (Protocol.managesieve.outSetup opt platform tag).Comes fuel [] (r.wire ++ rest) (status, tag)
      (heard r.wire) rest := by
  have read := @comes_capabilities platform fuel [] rest r greeted.quoted greeted.whole enough
  rw [greeted.sasl, if_pos greeted.ok] at read
  have known : ∀ starttls : Bool, 1 ≤ Sieve.bits starttls true ∧
      1 ≤ Sieve.bits starttls true ^^^ protocolSStarttls ∧
      (Sieve.bits starttls true ^^^ protocolSStarttls) &&& protocolSSaslPlain = protocolSSaslPlain := by
    decide
  obtain ⟨one, some_, sasl⟩ := known (r.lines.any Sieve.Line.starttls)
  refine ⟨Sieve.bits (r.lines.any Sieve.Line.starttls) true ^^^ protocolSStarttls, some_, sasl, ?_⟩
  have setup : (managesieveOutSetup opt platform).Comes fuel [] (r.wire ++ rest)
      ((Sieve.bits (r.lines.any Sieve.Line.starttls) true ^^^ protocolSStarttls : Nat) : Int)
      (heard r.wire) rest := by
    refine comes_bind read ?_
    rw [if_neg (by omega), if_pos (by rw [plain]; rfl), Int.toNat_natCast]
    exact comes_pure _
  exact comes_bind setup (comes_pure _)

/-- The other half of `AUTHENTICATE`. -/
theorem comes_sieveOutAuthenticate {history : List (Byte ⊕ Byte)} {rest : List Byte} {auth : Auth}
    {challenge : CString} (encoded : saslPlainChallengeEncode platform auth = some challenge)
    (line : ¬ challenge.Broken) (taken : challenge.length ≤ 1022) (known : SieveStatus verdict.1)
    (given : ¬ verdict.2.Broken) {capture : Option Capture}
    (fits : Fits capture (sieveFront verdict.1 verdict.2)) (tag : Token) {saslMech : Nat}
    (offered : statusHas saslMech protocolSSaslPlain = true)
    (enough : (sieveLine verdict.1 verdict.2 ++ rest).length < fuel) :
    (Protocol.managesieve.outAuthenticate platform sslModeEmpty auth saslMech tag capture).Comes fuel
      history (sieveLine verdict.1 verdict.2 ++ rest)
      ⟨if verdict.1 = lit "OK" then 1 else 0, tag, Capture.keep capture (sieveFront verdict.1 verdict.2)⟩
      (history ++ said (authenticateCommand .quoted challenge.content) ++
        heard (sieveLine verdict.1 verdict.2)) rest := by
  have command : (lit "AUTHENTICATE \"PLAIN\"").length = 20 := by decide
  have same : sieveLine (lit "AUTHENTICATE \"PLAIN\"") challenge =
      authenticateCommand .quoted challenge.content := by
    have content : (lit "AUTHENTICATE \"PLAIN\"").content ++ [space] = bytes "AUTHENTICATE \"PLAIN\" " := by
      decide
    simp [sieveLine, authenticateCommand, Sieve.Form.argument, ← content]
  have ask := @comes_sieveWrite fuel history (sieveLine verdict.1 verdict.2 ++ rest) perditionClient
    (lit "AUTHENTICATE \"PLAIN\"") challenge line (by
      rw [command, show maxText = 4093 from rfl]
      omega)
  rw [same] at ask
  have reply := @comes_readOk fuel (history ++ said (authenticateCommand .quoted challenge.content))
    rest verdict.1 verdict.2 known given capture fits enough
  have plain : (sslModeEmpty.has sslModeTlsOutgoing) = false := by decide
  rw [Protocol.outAuthenticate, managesieveOutAuthenticate, if_neg (by rw [plain]; decide), managesieveOutLogin,
    if_neg (by rw [offered]; decide), saslPlain, encoded]
  exact comes_bind ask (comes_bind reply (comes_pure _))

/-- The other half of a login. -/
theorem comes_sieveLogsIn {message : CString} {r : Sieve.Response} (greeted : Greeted platform message r)
    (plain : opt.sslMode.has sslModeTlsOutgoing = false) {auth : Auth} {challenge : CString}
    (encoded : saslPlainChallengeEncode platform auth = some challenge)
    (line : ¬ challenge.Broken) (taken : challenge.length ≤ 1022) (known : SieveStatus verdict.1)
    (given : ¬ verdict.2.Broken) {capture : Option Capture}
    (fits : Fits capture (sieveFront verdict.1 verdict.2)) (tag : Token)
    (enough : (r.wire ++ sieveLine verdict.1 verdict.2).length < fuel) :
    (Protocol.managesieve.logsIn opt platform auth tag capture).Comes fuel []
      (r.wire ++ sieveLine verdict.1 verdict.2)
      (some ⟨if verdict.1 = lit "OK" then 1 else 0, tag,
        Capture.keep capture (sieveFront verdict.1 verdict.2)⟩)
      (mirrored (sieveLogin r.wire challenge.content verdict)) [] := by
  obtain ⟨status, one, mechanism, setup⟩ := comes_sieveOutSetup greeted plain enough tag
  have offered : statusHas ((status &&& protocolSSaslPlain : Nat) : Int) protocolSSaslPlain = true := by
    rw [mechanism]
    decide
  have less := enough
  rw [List.length_append] at less
  have authenticate := @comes_sieveOutAuthenticate platform fuel verdict (heard r.wire) [] auth challenge
    encoded line taken known given capture fits tag _ offered (by rw [List.append_nil]; omega)
  rw [List.append_nil] at authenticate
  have same : mirrored (sieveLogin r.wire challenge.content verdict) =
      heard r.wire ++ said (authenticateCommand .quoted challenge.content) ++
        heard (sieveLine verdict.1 verdict.2) := by
    simp only [sieveLogin, mirrored_append, mirrored_heard, mirrored_said]
  rw [same]
  refine comes_bind setup ?_
  dsimp only
  rw [if_neg (by omega), Int.toNat_natCast]
  exact comes_bind authenticate (comes_pure _)

end Chain

/-- Options with SASL among the capabilities. -/
def Options.sasl : Options :=
  { Options.sample with managesieveCapability := lit "\"IMPLEMENTATION\" \"perdition\"  \"SASL\" \"PLAIN\"" }

/-- The greeting of an instance with these options. -/
def saslGreeting : CString := lit ("\"IMPLEMENTATION\" \"perdition\"\r\n\"SASL\" \"PLAIN\"\r\n" ++
  "OK \"perdition ready on mail 00000000\"")

theorem greeted_sasl : ∃ r, Greeted Platform.other.withBase64 saslGreeting r := by
  refine ⟨⟨[⟨.letters "IMPLEMENTATION" (by decide), [.letters "perdition" (by decide)]⟩,
      ⟨.letters "SASL" (by decide), [.letters "PLAIN" (by decide)]⟩], .ok,
    bytes " \"perdition ready on mail 00000000\"" ++ [cr], by decide, .inr ⟨_, rfl⟩⟩, ?_⟩
  have whole (word : String) (plain : 0 ∉ bytes word ∧ cr ∉ bytes word ∧ lf ∉ bytes word)
      (quoted : acapStrnIsQuoted Platform.other.withBase64 (quotedWire (bytes word)) = true)
      (closed : openAfter true false (quotedWire (bytes word)) = some false) (followed : Bool) :
      (Sieve.Str.letters word plain).Whole Platform.other.withBase64 true followed :=
    (Sieve.Str.whole_quoted rfl).mpr ⟨quoted, false, closed, fun _ => rfl⟩
  refine ⟨by decide +kernel, by decide +kernel, ?_, ?_, rfl, by decide +kernel⟩
  · simp [Sieve.Line.Quoted, Sieve.Line.strings, Sieve.Str.letters]
  · simp only [List.mem_cons, List.not_mem_nil, or_false, forall_eq_or_imp, forall_eq]
    exact ⟨⟨whole _ _ (by decide +kernel) (by decide) _, whole _ _ (by decide +kernel) (by decide) _,
      trivial⟩, whole _ _ (by decide +kernel) (by decide) _, whole _ _ (by decide +kernel) (by decide) _,
      trivial⟩

end Perdition
