import Perdition.Lib.Rounds
import Perdition.Verif.LineText

/-!
# Logging in to POP3

What `pop3_in_get_auth` returns along any run in which no error reply of `__POP3_IN_ERR` fails to be
written: the name of the last `USER` command it accepted and the text after `PASS`, or an error as
soon as another error reply fails. After a failed reply of `__POP3_IN_ERR` the line is carried out
as if it had been right.
-/
namespace Perdition

open Lib Program

/-! ## What a line calls for -/

/-- A line that calls for an error reply of `__POP3_IN_ERR`. -/
def pop3Faulty (opt : Options) (type : IoType) (name : Option CString) (t : Token) (q : Queue) :
    Bool :=
  t.isNull || t.len = 4 &&
    if pop3IsCmd t (lit "CAPA") then q.length ≠ 0
    else if opt.sslMode.has sslModeTlsListen && pop3IsCmd t (lit "STLS") then
      q.length ≠ 0 || type = .ssl
    else if pop3IsCmd t (lit "USER") then q.length ≠ 1 || q.head?.any Token.isNull
    else if pop3IsCmd t (lit "PASS") then name.isNone || q.isEmpty
    else if pop3IsCmd t (lit "QUIT") then !q.isEmpty
    else false

/-- A line that calls for an error reply of `__POP3_IN_INVALID_CMD`. -/
def pop3Unknown (opt : Options) (t : Token) : Bool :=
  !t.isNull && (t.len ≠ 4 || !(pop3IsCmd t (lit "CAPA") ||
    opt.sslMode.has sslModeTlsListen && pop3IsCmd t (lit "STLS") || pop3IsCmd t (lit "USER") ||
    pop3IsCmd t (lit "PASS") || pop3IsCmd t (lit "QUIT")))

/-- What a line does that calls for no error reply of `__POP3_IN_ERR`. -/
def pop3Served (opt : Options) (capability : CString) (t : Token) (q : Queue)
    (name : Option CString) : Pop3Round :=
  if t.len ≠ 4 then pop3InInvalidCmd opt (lit "the command is too short, ") name
  else if pop3IsCmd t (lit "CAPA") then do
    let _ ← pop3Write writeStrNoCllf (some (lit "+OK")) 1
      (some (lit "Capability list follows, mate\r\n%s")) [.str capability]
    return .inl name
  else if opt.sslMode.has sslModeTlsListen && pop3IsCmd t (lit "STLS") then do
    let _ ← pop3WriteStr nullFlag (some (lit "+OK")) (some (lit "Begin TLS negotiation, mate"))
    return .inr (InAuth.plain 2)
  else if pop3IsCmd t (lit "USER") then
    match q.head?.bind fun t => tokenToString t noStrip with
    | none => fault .tokenToString
    | some user => do
      let _ ← pop3WriteStr nullFlag (some (lit "+OK"))
        (some (lit "USER " ++ user ++ lit " set, mate"))
      return .inl (some user)
  else if pop3IsCmd t (lit "PASS") then
    match queueToString q with
    | none => fault .queueToString
    | some passwd => return .inr ⟨0, some (Auth.setPwd name (some passwd)), none⟩
  else if pop3IsCmd t (lit "QUIT") then do
    if (← pop3WriteStr nullFlag (some (lit "+OK")) (some (lit "QUIT"))) < 0 then
      return .inr (InAuth.plain (-1))
    else return .inr (InAuth.plain 1)
  else pop3InInvalidCmd opt (lit "the command ") name

/-! ## Error replies -/

/-- An error reply is one write. -/
theorem run_pop3InErr {reason : CString} (short : reason.length ≤ 64) (fuel : Nat) (ch : Channel) :
    (pop3InErr reason).run Channel.step fuel ch =
      .done (if ch.conn.write.1 then 0 else -1) ch.written := by
  have limit : (lit "-ERR").length + 64 + 3 ≤ maxText := by decide
  have sent : pop3InErr reason =
      send ((lit "-ERR").content ++ space :: reason.content ++ crlf) :=
    pop3WriteStr_argument (by decide) (by omega)
  rw [sent, run_send]

/-- The texts of the other error reply that fit. -/
def InvalidText (message : CString) : Prop :=
  ∀ extra ∈ [lit "STLS, ", .empty],
    (vformat ((lit "Mate, %smust be one of %sCAPA, USER, PASS or QUIT").content ++ crlf)
      [.str message, .str extra]).any (·.length ≤ 128) = true

/-- The other error reply is one write too, and a failed one ends the call. -/
theorem run_pop3InInvalidCmd (opt : Options) {message : CString} (text : InvalidText message)
    (name : Option CString) (fuel : Nat) (ch : Channel) :
    (pop3InInvalidCmd opt message name).run Channel.step fuel ch =
      .done (if ch.conn.write.1 then .inl name else .inr (InAuth.plain (-1))) ch.written := by
  have limit : (lit "-ERR").length + 1 + 128 ≤ maxText := by decide
  have replied : ∀ extra ∈ [lit "STLS, ", .empty],
      (do
        if (← pop3Write nullFlag (some (lit "-ERR")) 2
            (some (lit "Mate, %smust be one of %sCAPA, USER, PASS or QUIT"))
            [.str message, .str extra]) < 0 then
          return .inr (InAuth.plain (-1))
        else return .inl name : Pop3Round).run Channel.step fuel ch =
        .done (if ch.conn.write.1 then .inl name else .inr (InAuth.plain (-1))) ch.written := by
    intro extra either
    have ⟨body, expand, short⟩ := (Option.any_eq_true _ _).mp (text extra either)
    have fits := of_decide_eq_true short
    rw [pop3Write_expanded (by decide) (by decide) (by decide +kernel) (by decide) expand
      (by omega), run_bind, run_send]
    cases ch.conn.write.1 <;> rfl
  have either (type : IoType) :
      (if type ≠ .ssl then lit "STLS, " else .empty) ∈ [lit "STLS, ", .empty] := by
    split
    · exact List.mem_cons_self
    · exact List.mem_cons_of_mem _ List.mem_cons_self
  unfold pop3InInvalidCmd
  split
  · exact replied _ (either ch.conn.type)
  · exact replied _ (either .ssl)

theorem invalidText_short : InvalidText (lit "the command is too short, ") := by
  unfold InvalidText
  decide +kernel

theorem invalidText_other : InvalidText (lit "the command ") := by
  unfold InvalidText
  decide +kernel

section Served

variable {opt : Options} {capability : CString} {t : Token} {q : Queue} {name : Option CString}
  {ch : Channel}

/-- Where the error reply is written, the line is not looked at further. -/
theorem run_errIf {condition : Bool} {reason : CString} (short : reason.length ≤ 64)
    {rest : Pop3Round} (heard : condition = true → ch.conn.write.1 = true) (fuel : Nat) :
    (pop3InErrIf condition reason name rest).run Channel.step fuel ch =
      if condition then .done (.inl name) ch.written else rest.run Channel.step fuel ch := by
  unfold pop3InErrIf
  cases condition with
  | false => rfl
  | true =>
    rw [if_pos rfl, if_pos rfl, run_bind, run_pop3InErr short, heard rfl]
    rfl

/-- Where the error replies of `__POP3_IN_ERR` are written, a line that calls for none of them is
carried out and any other is passed over. -/
theorem run_pop3InCommand
    (heard : pop3Faulty opt ch.conn.type name t q = true → ch.conn.write.1 = true) (fuel : Nat) :
    (pop3InCommand opt capability t q name).run Channel.step fuel ch =
      if pop3Faulty opt ch.conn.type name t q then .done (.inl name) ch.written
      else (pop3Served opt capability t q name).run Channel.step fuel ch := by
  have type_ (rest : IoType → Pop3Round) : (ioGetType >>= rest).run Channel.step fuel ch =
      (rest ch.conn.type).run Channel.step fuel ch := rfl
  unfold pop3InCommand
  cases null : t.isNull with
  | true =>
    have faulty : pop3Faulty opt ch.conn.type name t q = true := by simp [pop3Faulty, null]
    rw [run_errIf (by decide) fun _ => heard faulty, faulty]
    rfl
  | false =>
    rw [run_errIf (by decide) (by simp), if_neg (by simp)]
    by_cases four : t.len = 4
    swap
    · simp [pop3Faulty, pop3Served, null, four]
    have whole : pop3Faulty opt ch.conn.type name t q =
        if pop3IsCmd t (lit "CAPA") then decide (q.length ≠ 0)
        else if opt.sslMode.has sslModeTlsListen && pop3IsCmd t (lit "STLS") then
          decide (q.length ≠ 0) || decide (ch.conn.type = .ssl)
        else if pop3IsCmd t (lit "USER") then
          decide (q.length ≠ 1) || q.head?.any Token.isNull
        else if pop3IsCmd t (lit "PASS") then name.isNone || q.isEmpty
        else if pop3IsCmd t (lit "QUIT") then !q.isEmpty
        else false := by
      simp [pop3Faulty, null, four]
    rw [whole] at heard ⊢
    have short : ¬ t.len ≠ 4 := fun other => other four
    simp only [pop3Served, short, ↓reduceIte]
    cases capa : pop3IsCmd t (lit "CAPA") with
    | true =>
      simp only [capa, ↓reduceIte] at heard ⊢
      rw [pop3InCapa, run_errIf (by decide) heard]
    | false =>
    simp only [capa, Bool.false_eq_true, ↓reduceIte] at heard ⊢
    cases stls : opt.sslMode.has sslModeTlsListen && pop3IsCmd t (lit "STLS") with
    | true =>
      simp only [stls, ↓reduceIte] at heard ⊢
      rw [pop3InStls, run_errIf (by decide) fun long => heard (by rw [long, Bool.true_or])]
      cases long : decide (q.length ≠ 0) with
      | true => rfl
      | false =>
        rw [long, Bool.false_or] at heard
        rw [if_neg (by simp), Bool.false_or, type_]
        by_cases secured : ch.conn.type = .ssl
        · rw [if_neg (by simp [secured]),
            run_errIf (by decide) fun _ => heard (decide_eq_true secured), if_pos rfl,
            if_pos (decide_eq_true secured)]
        · rw [if_pos secured, if_neg (by simp [secured])]
    | false =>
    simp only [stls, Bool.false_eq_true, ↓reduceIte] at heard ⊢
    rw [pop3InLoginCmd]
    cases user : pop3IsCmd t (lit "USER") with
    | true =>
      simp only [user, ↓reduceIte] at heard ⊢
      rw [pop3InUser.eq_def, run_errIf (by decide) fun long => heard (by rw [long, Bool.true_or])]
      cases long : decide (q.length ≠ 1) with
      | true => rfl
      | false =>
        rw [long, Bool.false_or] at heard
        rw [if_neg (by simp), Bool.false_or]
        cases q with
        | nil => simp at long
        | cons first rest =>
          have here : first.isNull = true → ch.conn.write.1 = true := heard
          exact run_errIf (by decide) here fuel
    | false =>
    simp only [user, Bool.false_eq_true, ↓reduceIte] at heard ⊢
    cases pass : pop3IsCmd t (lit "PASS") with
    | true =>
      simp only [pass, ↓reduceIte] at heard ⊢
      rw [pop3InPass, run_errIf (by decide) fun none_ => heard (by rw [none_, Bool.true_or])]
      cases none_ : name.isNone with
      | true => rfl
      | false =>
        rw [none_, Bool.false_or] at heard
        rw [if_neg (by simp), Bool.false_or]
        exact run_errIf (by decide) heard fuel
    | false =>
    simp only [pass, Bool.false_eq_true, ↓reduceIte] at heard ⊢
    cases quit : pop3IsCmd t (lit "QUIT") with
    | true =>
      simp only [quit, ↓reduceIte] at heard ⊢
      rw [pop3InQuit, run_errIf (by decide) heard]
    | false => simp only [Bool.false_eq_true, ↓reduceIte]

end Served

/-! ## Commands by name -/

/-- A word that is a name in any case is told from the other commands by the name. -/
theorem isCmd_spelled {command word : List Byte} (spelled : command.map toLower = word)
    (noNul : 0 ∉ word) (flag : Flag) (other : CString) :
    pop3IsCmd ⟨command, flag⟩ other =
      decide (word = (cstr (other.content.take word.length)).content.map toLower) := by
  have size : command.length = word.length := by rw [← spelled, List.length_map]
  have clean : 0 ∉ command := by
    intro nul
    apply noNul
    rw [← spelled]
    exact List.mem_map_of_mem nul
  rw [pop3IsCmd, strncaseEq, Token.len, size, List.take_of_length_le size.le, cstr_content clean,
    spelled]

/-- A word that is taken for a command of its length is the name of the command in any case. -/
theorem spelled_isCmd {t : Token} {command : CString} (size : t.len = command.length)
    (is : pop3IsCmd t command = true) :
    t.buf.map toLower = command.content.map toLower := by
  have same : (cstr (t.buf.take t.len)).content.map toLower =
      (cstr (command.content.take t.len)).content.map toLower := of_decide_eq_true is
  rw [Token.len, List.take_length] at same
  rw [List.take_of_length_le (show command.content.length ≤ t.buf.length from size.ge),
    cstr_content command.noNul] at same
  -- a NUL in the word would make it shorter than the name
  have whole : (cstr t.buf).content = t.buf := by
    apply List.IsPrefix.eq_of_length (List.takeWhile_prefix _)
    have sizes := congrArg List.length same
    rw [List.length_map, List.length_map] at sizes
    exact sizes.trans size.symm
  rw [← whole, same]

/-! ## Rounds -/

section Round

variable {opt : Options} {capability : CString} {t : Token} {q : Queue}
  {name name' : Option CString} {ch ch' : Channel} {fuel : Nat}

/-- What only writes takes nothing from the stream. -/
theorem writes_stream {α : Type} {program : Dialogue α}
    (writes : program.Obeys writing fun _ => True) {result : α}
    (ran : program.run Channel.step fuel ch = .done result ch') :
    ch'.stream = ch.stream := by
  have kept : Triple Channel.step (fun s => s.stream = ch.stream) program
      (fun _ s => True ∧ s.stream = ch.stream) fun _ => True := by
    apply triple_of_obeys writes
    · intro op allowed s same
      cases op with
      | nextByte => exact allowed.elim
      | write content => exact ⟨trivial, (Channel.stream_written s).trans same⟩
      | getType => exact ⟨trivial, same⟩
      | stale count => exact ⟨trivial, same⟩
      | fault why => trivial
    · exact fun _ _ => trivial
  have ended := kept fuel ch rfl
  rw [ran] at ended
  exact ended.2

/-- A line that is carried out is answered and nothing else is read. -/
theorem served_writing : (pop3Served opt capability t q name).Obeys writing fun _ => True := by
  have invalid (message : CString) :
      (pop3InInvalidCmd opt message name).Obeys writing fun _ => True := by
    have answered (type : IoType) := obeys_bind.mpr (obeys_mono (pop3Write_writing nullFlag
      (some (lit "-ERR")) 2 (some (lit "Mate, %smust be one of %sCAPA, USER, PASS or QUIT"))
      [.str message, .str (if type ≠ .ssl then lit "STLS, " else .empty)])
      fun status _ => show (if status < 0 then return .inr (InAuth.plain (-1))
        else return .inl name : Pop3Round).Obeys writing fun _ => True from
        obeys_ite (fun _ => trivial) fun _ => trivial)
    unfold pop3InInvalidCmd
    split
    · exact obeys_step trivial fun type _ => answered type
    · exact answered .ssl
  unfold pop3Served
  apply obeys_ite
  · exact fun _ => invalid _
  intro _
  apply obeys_ite
  · exact fun _ => obeys_then (pop3Write_writing _ _ _ _ _) fun _ => trivial
  intro _
  apply obeys_ite
  · exact fun _ => obeys_then (pop3WriteStr_writing _ _ _) fun _ => trivial
  intro _
  apply obeys_ite
  · intro _
    split
    · exact fault_obeys trivial
    · exact obeys_then (pop3WriteStr_writing _ _ _) fun _ => trivial
  intro _
  apply obeys_ite
  · intro _
    split
    · exact fault_obeys trivial
    · trivial
  intro _
  apply obeys_ite
  · exact fun _ => obeys_then (pop3WriteStr_writing _ _ _) fun _ =>
      obeys_ite (fun _ => trivial) fun _ => trivial
  · exact fun _ => invalid _

/-- A line that is carried out keeps the name, or is a `USER` command. -/
theorem served_goes
    (ran : (pop3Served opt capability t q name).run Channel.step fuel ch = .done (.inl name') ch') :
    (name' = name ∧ (t.len = 4 → pop3IsCmd t (lit "USER") = true →
      pop3IsCmd t (lit "CAPA") = true)) ∨
    t.len = 4 ∧ pop3IsCmd t (lit "USER") = true ∧
      name' = q.head?.bind fun t => tokenToString t noStrip := by
  have passed {message : CString} (text : InvalidText message)
      (ran : (pop3InInvalidCmd opt message name).run Channel.step fuel ch =
        .done (.inl name') ch') : name' = name := by
    rw [run_pop3InInvalidCmd opt text] at ran
    split at ran <;> cases ran
    rfl
  unfold pop3Served at ran
  split at ran
  · rename_i other
    exact .inl ⟨passed invalidText_short ran, fun four => absurd four other⟩
  rename_i four
  have four : t.len = 4 := not_not.mp four
  split at ran
  · rename_i capa
    obtain ⟨_, _, _, last⟩ := Outcome.next_eq_done.mp ran
    cases last
    exact .inl ⟨rfl, fun _ _ => capa⟩
  split at ran
  · obtain ⟨_, _, _, last⟩ := Outcome.next_eq_done.mp ran
    cases last
  split at ran
  · rename_i user
    split at ran
    · cases ran
    · rename_i given
      obtain ⟨_, _, _, last⟩ := Outcome.next_eq_done.mp ran
      cases last
      exact .inr ⟨four, user, given.symm⟩
  rename_i other
  split at ran
  · split at ran <;> cases ran
  split at ran
  · obtain ⟨_, _, _, last⟩ := Outcome.next_eq_done.mp ran
    dsimp only at last
    split at last <;> cases last
  · exact .inl ⟨passed invalidText_other ran, fun _ user => absurd user other⟩

/-- A line that is carried out returns credentials only for a `PASS` command. -/
theorem served_returns {auth : InAuth}
    (ran : (pop3Served opt capability t q name).run Channel.step fuel ch = .done (.inr auth) ch')
    (credentials : auth.status = 0) :
    t.len = 4 ∧ pop3IsCmd t (lit "PASS") = true ∧ ∃ passwd, queueToString q = some passwd ∧
      auth = ⟨0, some (Auth.setPwd name (some passwd)), none⟩ := by
  have refused {message : CString} (text : InvalidText message)
      (ran : (pop3InInvalidCmd opt message name).run Channel.step fuel ch =
        .done (.inr auth) ch') : False := by
    rw [run_pop3InInvalidCmd opt text] at ran
    split at ran <;> cases ran
    cases credentials
  unfold pop3Served at ran
  split at ran
  · exact (refused invalidText_short ran).elim
  rename_i four
  split at ran
  · obtain ⟨_, _, _, last⟩ := Outcome.next_eq_done.mp ran
    cases last
  split at ran
  · obtain ⟨_, _, _, last⟩ := Outcome.next_eq_done.mp ran
    cases last
    cases credentials
  split at ran
  · split at ran
    · cases ran
    · obtain ⟨_, _, _, last⟩ := Outcome.next_eq_done.mp ran
      cases last
  split at ran
  · rename_i pass
    split at ran
    · cases ran
    · rename_i passwd joined
      cases ran
      exact ⟨not_not.mp four, pass, passwd, joined, rfl⟩
  split at ran
  · obtain ⟨_, _, _, last⟩ := Outcome.next_eq_done.mp ran
    dsimp only at last
    split at last <;> cases last <;> cases credentials
  · exact (refused invalidText_other ran).elim

/-- A round takes a line and carries out its command. -/
theorem run_pop3InRound (opt : Options) (capability : CString) (name : Option CString)
    {line rest : List Byte} (arrives : ch.stream = line ++ lf :: rest)
    (whole : lf ∉ line) (enough : ch.stream.length < fuel) :
    ∃ t q ch', lineTokens (words false line) = t :: q ∧ ch.Reaches ch' rest ∧
      (pop3InRound opt capability name).run Channel.step fuel ch =
        (pop3InCommand opt capability t q name).run Channel.step fuel ch' := by
  have ⟨ch', read, left⟩ := readLine_streamed (Channel.streamed ch) lineFlag_pop3.normal 0
    (Channel.Reaches.refl ch) enough
  rw [arrives, scanLine_line lineFlag_pop3 0 rest whole] at read left
  cases tokens : lineTokens (words (tokenPop3.has tokenImap4) line) with
  | nil =>
    have bufs := lineTokens_buf (words (tokenPop3.has tokenImap4) line)
    rw [tokens] at bufs
    exact absurd bufs.symm (wordsFrom_ne_nil _ _ _ _)
  | cons t q =>
    rw [tokens] at read
    refine ⟨t, q, ch', tokens, left, ?_⟩
    rw [pop3InRound, run_bind, read]
    rfl

/-- A round that does not fail has taken a line. -/
theorem round_takes (enough : ch.stream.length < fuel) {result : Option CString ⊕ InAuth}
    (ran : (pop3InRound opt capability name).run Channel.step fuel ch = .done result ch')
    (goes : result ≠ .inr (InAuth.plain (-1))) :
    ∃ line rest, ch.stream = line ++ lf :: rest ∧ lf ∉ line := by
  by_cases ended : lf ∈ ch.stream
  · have ⟨line, rest, same, whole⟩ := List.eq_append_cons_of_mem ended
    exact ⟨line, rest, same, whole⟩
  · have ⟨after, read, _⟩ := readLine_streamed (Channel.streamed ch) lineFlag_pop3.normal 0
      (Channel.Reaches.refl ch) enough
    rw [scanLine_open lineFlag_pop3 0 ended] at read
    rw [pop3InRound, run_bind, read] at ran
    cases ran
    exact absurd rfl goes

end Round

/-! ## Names -/

/-- The argument of a `USER` command as it is accepted: one word that is not empty. -/
def userGiven (line : List Byte) : Option (List Byte) :=
  match words false line with
  | [command, arg] =>
    if command.map toLower = bytes "user" ∧ arg ≠ [] then some arg else none
  | _ => none

/-- The argument of the last `USER` command that is accepted. -/
def lastUser (lines : List (List Byte)) : Option (List Byte) :=
  (lines.filterMap userGiven).getLast?

theorem lastUser_append (lines : List (List Byte)) (line : List Byte) :
    lastUser (lines ++ [line]) = (userGiven line).or (lastUser lines) := by
  rw [lastUser, List.filterMap_append, List.getLast?_append]
  cases given : userGiven line with
  | none => simp [given, lastUser]
  | some arg => simp [given]

theorem userGiven_some {line arg : List Byte} (given : userGiven line = some arg) :
    ∃ command, words false line = [command, arg] ∧ command.map toLower = bytes "user" ∧
      arg ≠ [] := by
  unfold userGiven at given
  split at given
  · rename_i command arg' split_
    split at given
    · rename_i both
      cases given
      exact ⟨command, split_, both.1, both.2⟩
    · cases given
  · cases given

section Named

variable {opt : Options} {type : IoType} {name : Option CString} {line : List Byte} {t : Token}
  {q : Queue}

/-- An accepted `USER` command is no error. -/
theorem userGiven_right {arg : List Byte} (tokens : lineTokens (words false line) = t :: q)
    (given : userGiven line = some arg) :
    t.len = 4 ∧ pop3IsCmd t (lit "CAPA") = false ∧ pop3IsCmd t (lit "USER") = true ∧
      q.head? = some ⟨arg, tokenEol⟩ ∧ pop3Faulty opt type name t q = false := by
  have ⟨command, split_, spelled, some_⟩ := userGiven_some given
  rw [split_] at tokens
  have ⟨first, rest⟩ := List.cons.inj tokens
  subst first
  subst rest
  have size : command.length = 4 := by
    have sizes := congrArg List.length spelled
    rwa [List.length_map] at sizes
  have is (other : CString) := isCmd_spelled spelled (by decide) tokenNone other
  have capa : pop3IsCmd ⟨command, tokenNone⟩ (lit "CAPA") = false := (is _).trans (by decide)
  have stls : pop3IsCmd ⟨command, tokenNone⟩ (lit "STLS") = false := (is _).trans (by decide)
  have user : pop3IsCmd ⟨command, tokenNone⟩ (lit "USER") = true := (is _).trans (by decide)
  have null_ : Token.isNull ⟨command, tokenNone⟩ = false := by
    cases command with
    | nil => cases size
    | cons b command => rfl
  have filled : Token.isNull ⟨arg, tokenEol⟩ = false := List.isEmpty_eq_false_iff.mpr some_
  refine ⟨size, capa, user, rfl, ?_⟩
  simp [pop3Faulty, null_, capa, stls, user, lineTokens, filled]

/-- A `USER` command without error is accepted. -/
theorem userGiven_of_right (tokens : lineTokens (words false line) = t :: q) (four : t.len = 4)
    (user : pop3IsCmd t (lit "USER") = true) (right_ : pop3Faulty opt type name t q = false) :
    ∃ arg, userGiven line = some arg ∧ q.head? = some ⟨arg, tokenEol⟩ := by
  have spelled : t.buf.map toLower = bytes "user" := (spelled_isCmd four user).trans (by decide)
  have is (other : CString) := isCmd_spelled spelled (by decide) t.flag other
  have capa : pop3IsCmd t (lit "CAPA") = false := (is _).trans (by decide)
  have stls : pop3IsCmd t (lit "STLS") = false := (is _).trans (by decide)
  have one : t.isNull = false ∧ q.length = 1 ∧ q.head?.any Token.isNull = false := by
    simpa [pop3Faulty, four, capa, stls, user] using right_
  match split_ : words false line, tokens with
  | [command, arg], tokens =>
    have ⟨first, rest⟩ := List.cons.inj tokens
    subst first
    subst rest
    have some_ : arg ≠ [] := List.isEmpty_eq_false_iff.mp one.2.2
    exact ⟨arg, by rw [userGiven, split_]; exact if_pos ⟨spelled, some_⟩, rfl⟩
  | [command], tokens =>
    have ⟨_, rest⟩ := List.cons.inj tokens
    subst rest
    exact absurd one.2.1 (by decide)
  | command :: arg :: more :: others, tokens =>
    have sizes := congrArg (fun tokens : Queue => (tokens.map Token.buf).length) tokens
    simp only [lineTokens_buf, List.map_cons, List.length_cons, List.length_map] at sizes
    omega

end Named

/-! ## Runs -/

/-- The error replies of `__POP3_IN_ERR` that a line calls for are written, and the arguments taken
from it are strings that fit the buffers. -/
structure Pop3Heard (opt : Options) (name : Option CString) (ch : Channel) (line : List Byte) :
    Prop where
  /-- The client is told of the error. -/
  told : ∀ t q, lineTokens (words false line) = t :: q →
    pop3Faulty opt ch.conn.type name t q = true → ch.conn.write.1 = true
  /-- The name is a string. -/
  user : ∀ arg, userGiven line = some arg → 0 ∉ arg
  /-- The password is a string, and no word of it fills the buffer of `token_read`. -/
  pass : ∀ command args, words false line = command :: args → args ≠ [] → IsPass command →
    LineFits false line

/-- A round of `pop3_in_get_auth` takes a line and goes on. -/
structure Pop3Takes (opt : Options) (capability : CString) (fuel : Nat)
    (before : Option CString × Channel) (line : List Byte) (after : Option CString × Channel) :
    Prop where
  /-- The line has no end in it. -/
  whole : lf ∉ line
  /-- It is the next one. -/
  arrives : ∃ rest, before.2.stream = line ++ lf :: rest
  /-- The round goes on. -/
  ran : (pop3InRound opt capability before.1).run Channel.step fuel before.2 =
    .done (.inl after.1) after.2

section Runs

variable {opt : Options} {capability : CString} {fuel : Nat} {name name' : Option CString}
  {ch ch' : Channel} {line : List Byte}

/-- A line that is heard is heard after it was read. -/
theorem Pop3Heard.read {rest : List Byte} {t : Token} {q : Queue}
    (heard : Pop3Heard opt name ch line) (left : ch.Reaches ch' rest)
    (tokens : lineTokens (words false line) = t :: q)
    (faulty : pop3Faulty opt ch'.conn.type name t q = true) : ch'.conn.write.1 = true := by
  rw [left.write]
  rw [left.type] at faulty
  exact heard.told t q tokens faulty

/-- A round that goes on takes its line and no more, and sets the name where it accepts one. -/
theorem Pop3Takes.keeps (took : Pop3Takes opt capability fuel (name, ch) line (name', ch'))
    (heard : Pop3Heard opt name ch line) (enough : ch.stream.length < fuel) :
    ch.stream = line ++ lf :: ch'.stream ∧
      name'.map CString.content = (userGiven line).or (name.map CString.content) := by
  have ⟨rest, arrives⟩ : ∃ rest, ch.stream = line ++ lf :: rest := took.arrives
  have ⟨t, q, middle, tokens, left, same⟩ :=
    run_pop3InRound opt capability name arrives took.whole enough
  have ran : (pop3InRound opt capability name).run Channel.step fuel ch = .done (.inl name') ch' :=
    took.ran
  rw [same, run_pop3InCommand (heard.read left tokens)] at ran
  split at ran
  · rename_i faulty
    cases ran
    constructor
    · rw [Channel.stream_written, left.stream]
      exact arrives
    · cases given : userGiven line with
      | none => rfl
      | some arg =>
        have ⟨_, _, _, _, right_⟩ := @userGiven_right opt middle.conn.type name _ _ _ _ tokens given
        exact absurd (right_.symm.trans faulty) Bool.false_ne_true
  · rename_i right_
    have right_ := Bool.eq_false_iff.mpr right_
    constructor
    · rw [writes_stream served_writing ran, left.stream]
      exact arrives
    · rcases served_goes ran with ⟨kept, other⟩ | ⟨four, user, named⟩
      · cases given : userGiven line with
        | none => rw [kept, Option.none_or]
        | some arg =>
          have ⟨four, capa, user, _, _⟩ := @userGiven_right opt .fd name _ _ _ _ tokens given
          exact absurd (capa.symm.trans (other four user)) Bool.false_ne_true
      · have ⟨arg, given, first⟩ := userGiven_of_right tokens four user right_
        rw [first, Option.bind_some] at named
        rw [named.trans (tokenToString_noStrip _), given, Option.map_some,
          cstr_content (heard.user arg given), Option.some_or]

/-- `pop3_in_get_auth` has taken these lines and waits for the next one. -/
def Pop3Reaches (opt : Options) (tlsFlags tlsState : Flag) (fuel : Nat) (ch : Channel)
    (lines : List (List Byte)) (name : Option CString) (ch' : Channel) : Prop :=
  ∃ capability, pop3InCapability opt tlsFlags tlsState = some capability ∧
    Path (Pop3Takes opt capability fuel) (none, ch) lines (name, ch')

/-- Whatever lines were taken, the next one is heard. -/
def Pop3Hears (opt : Options) (tlsFlags tlsState : Flag) (fuel : Nat) (ch : Channel) : Prop :=
  ∀ lines name ch' line rest, Pop3Reaches opt tlsFlags tlsState fuel ch lines name ch' →
    ch'.stream = line ++ lf :: rest → lf ∉ line → Pop3Heard opt name ch' line

variable {tlsFlags tlsState : Flag} {lines : List (List Byte)}

/-- Along every path of lines that are heard the name is the one that was accepted last, and every
line has taken a byte or more. -/
theorem reaches_named (enough : ch.stream.length < fuel)
    (hears : Pop3Hears opt tlsFlags tlsState fuel ch)
    (built : pop3InCapability opt tlsFlags tlsState = some capability)
    {x : Option CString × Channel}
    (path : Path (Pop3Takes opt capability fuel) (none, ch) lines x) :
    x.1.map CString.content = lastUser lines ∧
      lines.length + x.2.stream.length ≤ ch.stream.length := by
  apply path.invariant fun lines x => x.1.map CString.content = lastUser lines ∧
    lines.length + x.2.stream.length ≤ ch.stream.length
  · exact ⟨rfl, by simp⟩
  · intro lines before line after path holds took
    have ⟨rest, arrives⟩ := took.arrives
    have heard := hears lines before.1 before.2 line rest ⟨capability, built, path⟩ arrives
      took.whole
    have ⟨taken, named⟩ := Pop3Takes.keeps took heard (by omega)
    constructor
    · rw [named, lastUser_append, holds.1]
    · have sizes := congrArg List.length taken
      simp only [List.length_append, List.length_cons, List.length_nil] at sizes ⊢
      omega

/-- A round that returns credentials has read a `PASS` command with the password after it. -/
theorem round_credentials {rest : List Byte} {auth : InAuth}
    (arrives : ch.stream = line ++ lf :: rest) (whole : lf ∉ line)
    (enough : ch.stream.length < fuel) (heard : Pop3Heard opt name ch line)
    (ran : (pop3InRound opt capability name).run Channel.step fuel ch = .done (.inr auth) ch')
    (credentials : auth.status = 0) :
    ∃ user command passwd, name = some user ∧ IsPass command ∧
      withoutCr line = command ++ space :: passwd.content ∧
      auth = ⟨0, some (Auth.setPwd (some user) (some passwd)), none⟩ := by
  have ⟨t, q, middle, tokens, left, same⟩ := run_pop3InRound opt capability name arrives whole
    enough
  rw [same, run_pop3InCommand (heard.read left tokens)] at ran
  split at ran
  · cases ran
  rename_i right_
  have ⟨four, pass, passwd, joined, returned⟩ := served_returns ran credentials
  have spelled : t.buf.map toLower = bytes "pass" := (spelled_isCmd four pass).trans (by decide)
  have is (other : CString) := isCmd_spelled spelled (by decide) t.flag other
  have capa : pop3IsCmd t (lit "CAPA") = false := (is _).trans (by decide)
  have stls : pop3IsCmd t (lit "STLS") = false := (is _).trans (by decide)
  have named : pop3IsCmd t (lit "USER") = false := (is _).trans (by decide)
  have set_ : t.isNull = false ∧ name ≠ none ∧ q ≠ [] := by
    simpa [pop3Faulty, four, capa, stls, named, pass] using right_
  have ⟨user, known⟩ := Option.ne_none_iff_exists'.mp set_.2.1
  match split_ : words false line, tokens with
  | [command], tokens =>
    have ⟨_, none_⟩ := List.cons.inj tokens
    subst none_
    exact absurd rfl set_.2.2
  | command :: arg :: more, tokens =>
    rw [lineTokens_cons (List.cons_ne_nil _ _)] at tokens
    have ⟨first, args⟩ := List.cons.inj tokens
    subst first
    subst args
    have fits := heard.pass command (arg :: more) split_ (List.cons_ne_nil _ _) spelled
    have pieces : words false line = linePieces false line :=
      wordsFrom_pieces false line [] false fits.short
    have text : List.intercalate [space] (linePieces false line) = withoutCr line :=
      linePiecesFrom_join false line [] false
    rw [queueToString_lineTokens (List.cons_ne_nil _ _)] at joined
    cases joined
    have noNul : 0 ∉ List.intercalate [space] (arg :: more) := by
      intro nul
      have within : 0 ∈ withoutCr line := by
        rw [← text, ← pieces, split_, intercalate_cons (List.cons_ne_nil _ _)]
        exact List.mem_append_right _ (List.mem_cons_of_mem _ nul)
      exact fits.noNul (List.mem_filter.mp within).1
    refine ⟨user, command, _, known, spelled, ?_, known ▸ returned⟩
    rw [cstr_content noNul, ← intercalate_cons (List.cons_ne_nil _ _), ← split_, pieces, text]

/-- A line that calls for an error reply that is not written ends the call. -/
theorem round_untold (capability : CString) {rest : List Byte} {t : Token} {q : Queue}
    (arrives : ch.stream = line ++ lf :: rest) (whole : lf ∉ line)
    (enough : ch.stream.length < fuel) (heard : Pop3Heard opt name ch line)
    (tokens : lineTokens (words false line) = t :: q)
    (wrong : pop3Faulty opt ch.conn.type name t q = true ∨ pop3Unknown opt t = true)
    (unwritten : ch.conn.write.1 = false) :
    ∃ middle, ch.Reaches middle rest ∧
      (pop3InRound opt capability name).run Channel.step fuel ch =
        .done (.inr (InAuth.plain (-1))) middle.written := by
  have ⟨t', q', middle, tokens', left, same⟩ := run_pop3InRound opt capability name arrives whole
    enough
  have ⟨first, args⟩ := List.cons.inj (tokens'.symm.trans tokens)
  subst first
  subst args
  refine ⟨middle, left, ?_⟩
  have told := heard.told t' q' tokens
  rw [unwritten] at told
  have right_ : pop3Faulty opt middle.conn.type name t' q' = false := by
    rw [left.type]
    exact Bool.eq_false_iff.mpr fun faulty => absurd (told faulty) Bool.false_ne_true
  have unknown : pop3Unknown opt t' = true := wrong.resolve_left fun faulty =>
    absurd (told faulty) Bool.false_ne_true
  have ends {message : CString} (text : InvalidText message) :
      (pop3InInvalidCmd opt message name).run Channel.step fuel middle =
        .done (.inr (InAuth.plain (-1))) middle.written := by
    rw [run_pop3InInvalidCmd opt text, left.write, unwritten]
    rfl
  rw [same, run_pop3InCommand (heard.read left tokens), right_, if_neg Bool.false_ne_true,
    pop3Served]
  by_cases four : t'.len = 4
  · have others : (((pop3IsCmd t' (lit "CAPA") = false ∧
        (opt.sslMode.has sslModeTlsListen && pop3IsCmd t' (lit "STLS")) = false) ∧
        pop3IsCmd t' (lit "USER") = false) ∧ pop3IsCmd t' (lit "PASS") = false) ∧
        pop3IsCmd t' (lit "QUIT") = false := by
      rw [pop3Unknown, Bool.and_eq_true, Bool.or_eq_true] at unknown
      have none_ := unknown.2.resolve_left (by simp [four])
      rwa [Bool.not_eq_true', Bool.or_eq_false_iff, Bool.or_eq_false_iff, Bool.or_eq_false_iff,
        Bool.or_eq_false_iff] at none_
    obtain ⟨⟨⟨⟨capa, stls⟩, user⟩, pass⟩, quit⟩ := others
    rw [if_neg (not_not.mpr four), capa, stls, user, pass, quit]
    exact ends invalidText_other
  · rw [if_pos four]
    exact ends invalidText_short

/-- A run of `pop3_in_get_auth` goes on from the end of a path of lines. -/
theorem run_reaches {result : InAuth} {last : Channel} (enough : ch.stream.length < fuel)
    (hears : Pop3Hears opt tlsFlags tlsState fuel ch)
    (built : pop3InCapability opt tlsFlags tlsState = some capability)
    (path : Path (Pop3Takes opt capability fuel) (none, ch) lines (name, ch'))
    (ran : (pop3InRound opt capability name).run Channel.step fuel ch' = .done (.inr result) last) :
    (pop3InGetAuth opt tlsFlags tlsState).run Channel.step fuel ch = .done result last := by
  have ⟨_, taken⟩ := reaches_named enough hears built path
  have turns : fuel = lines.length + (fuel - lines.length - 1 + 1) := by omega
  have along := iterate_along
    (fun at_ s => (pop3InRound opt capability at_).run Channel.step fuel s)
    (fun _ _ _ took => took.ran) path (fuel - lines.length - 1 + 1)
  rw [← turns] at along
  rw [pop3InGetAuth, built]
  change iterate _ fuel none ch = _
  rw [along, iterate, ran]
  rfl

/-- A run of `pop3_in_get_auth` that returns credentials ends after lines that are heard. -/
theorem returned_credentials {auth : InAuth} (enough : ch.stream.length < fuel)
    (hears : Pop3Hears opt tlsFlags tlsState fuel ch)
    (ran : (pop3InGetAuth opt tlsFlags tlsState).run Channel.step fuel ch = .done auth ch')
    (credentials : auth.status = 0) :
    ∃ lines user middle line rest command passwd,
      Pop3Reaches opt tlsFlags tlsState fuel ch lines (some user) middle ∧
      middle.stream = line ++ lf :: rest ∧ lf ∉ line ∧ IsPass command ∧
      withoutCr line = command ++ space :: passwd.content ∧
      auth = ⟨0, some (Auth.setPwd (some user) (some passwd)), none⟩ := by
  rw [pop3InGetAuth] at ran
  cases built : pop3InCapability opt tlsFlags tlsState with
  | none =>
    rw [built] at ran
    cases ran
  | some capability =>
  rw [built] at ran
  change iterate (fun at_ s => (pop3InRound opt capability at_).run Channel.step fuel s) fuel none
    ch = .done auth ch' at ran
  -- every round before the last one has taken a line that was heard
  have labelled (lines : List (List Byte)) (x y : Option CString × Channel)
      (path : Path (Pop3Takes opt capability fuel) (none, ch) lines x)
      (goes : (pop3InRound opt capability x.1).run Channel.step fuel x.2 = .done (.inl y.1) y.2) :
      ∃ line, Pop3Takes opt capability fuel x line y := by
    have ⟨_, taken⟩ := reaches_named enough hears built path
    have ⟨line, rest, arrives, whole⟩ := round_takes (by omega) goes Sum.inl_ne_inr
    exact ⟨line, whole, ⟨rest, arrives⟩, goes⟩
  have ⟨lines, ⟨name, middle⟩, path, final⟩ := iterate_path
    (fun at_ s => (pop3InRound opt capability at_).run Channel.step fuel s) labelled fuel []
    (none, ch) .none ran
  have ⟨_, taken⟩ := reaches_named enough hears built path
  have short : middle.stream.length < fuel := by
    dsimp only at taken
    omega
  have ⟨line, rest, arrives, whole⟩ := round_takes short final fun failed => by
    cases failed
    cases credentials
  have heard := hears lines name middle line rest ⟨capability, built, path⟩ arrives whole
  have ⟨user, command, passwd, known, pass, text, returned⟩ :=
    round_credentials arrives whole short heard final credentials
  subst known
  exact ⟨lines, user, middle, line, rest, command, passwd, ⟨capability, built, path⟩, arrives,
    whole, pass, text, returned⟩

/-- A line that is shorter than the buffer fits it. -/
theorem lineFits_short {quotes : Bool} (whole : lf ∉ line) (noNul : 0 ∉ line)
    (small : line.length < maxLineLength) : LineFits quotes line := by
  have within : ∀ (list : List (List Byte)), ∀ w ∈ list,
      w.length ≤ (List.intercalate [space] list).length := by
    intro list
    induction list with
    | nil => exact fun w member => nomatch member
    | cons first list ih =>
      intro w member
      by_cases more : list = []
      · subst more
        rw [List.mem_singleton.mp member, List.intercalate_singleton]
      · rw [intercalate_cons more, List.length_append, List.length_cons]
        rcases List.mem_cons.mp member with same | later
        · rw [same]
          omega
        · have bound := ih w later
          omega
  refine ⟨whole, noNul, fun w member => ?_⟩
  have bound := within (linePieces quotes line) w member
  rw [linePieces, linePiecesFrom_join, List.nil_append] at bound
  have kept : (withoutCr line).length ≤ line.length := List.length_filter_le _ _
  omega

/-- Where every write succeeds from now on, it does so after an operation. -/
theorem step_written (op : IoOp) (ch : Channel) (written : ch.conn.writes = []) :
    (ch.step op).state.conn.writes = [] := by
  cases op with
  | nextByte =>
    have kept (conn : Connection) : conn.read.2.writes = conn.writes := by
      unfold Connection.read
      split
      · rfl
      · split <;> rfl
    change ch.nextByte.2.conn.writes = []
    rw [← written, ← kept ch.conn]
    unfold Channel.nextByte
    split
    · exact (kept ch.conn).symm
    · split <;> rename_i conn read <;> rw [read]
  | write content =>
    change ch.conn.write.2.writes = []
    rw [Connection.write, written]
    exact written
  | getType => exact written
  | stale count => exact written
  | fault why => exact written

/-- A client whose replies are all written, and that sends no NUL and less than the buffer holds, is
heard. -/
theorem hears_short (enough : ch.stream.length < fuel) (written : ch.conn.writes = [])
    (noNul : 0 ∉ ch.stream) (small : ch.stream.length < maxLineLength) :
    Pop3Hears opt tlsFlags tlsState fuel ch := by
  have heard {name : Option CString} {ch' : Channel} {line rest : List Byte}
      (written : ch'.conn.writes = []) (suffix : ch'.stream <:+ ch.stream)
      (arrives : ch'.stream = line ++ lf :: rest) (whole : lf ∉ line) :
      Pop3Heard opt name ch' line := by
    have inside : ∀ b ∈ line, b ∈ ch.stream := fun b member =>
      suffix.subset (arrives ▸ List.mem_append_left _ member)
    have size : line.length < maxLineLength := by
      have sizes := suffix.length_le
      rw [arrives, List.length_append] at sizes
      omega
    have fits : LineFits false line :=
      lineFits_short whole (fun nul => noNul (inside 0 nul)) size
    constructor
    · intro t q _ _
      rw [Connection.write, written]
    · intro arg given nul
      obtain ⟨command, split_, _⟩ := userGiven_some given
      have member : arg ∈ linePieces false line := by
        rw [linePieces, ← wordsFrom_pieces false line [] false fits.short]
        change arg ∈ words false line
        rw [split_]
        exact List.mem_cons_of_mem _ List.mem_cons_self
      rcases mem_piecesFrom line [] false arg member nul with empty_ | deep
      · cases empty_
      · exact fits.noNul deep
    · exact fun _ _ _ _ _ => fits
  intro lines name ch' line rest reached arrives whole
  obtain ⟨capability, _, path⟩ := reached
  obtain ⟨silent, suffix⟩ := path.invariant
    (fun _ x => x.2.conn.writes = [] ∧ x.2.stream <:+ ch.stream) ⟨written, List.suffix_rfl⟩
    fun lines before line after path holds took => by
      obtain ⟨rest, arrives⟩ := took.arrives
      obtain ⟨taken, _⟩ := Pop3Takes.keeps took (heard holds.1 holds.2 arrives took.whole)
        (Nat.lt_of_le_of_lt holds.2.length_le enough)
      constructor
      · have kept := run_invariant (pop3InRound opt capability before.1) step_written fuel before.2
          holds.1
        rwa [took.ran] at kept
      · exact (List.suffix_append (line ++ [lf]) after.2.stream).trans
          (by rw [List.append_assoc]; exact taken ▸ holds.2)
  exact heard silent suffix arrives whole

/-- Where every line is heard, the name is that of the last `USER` command accepted, credentials are
this name and the text after a `PASS` command, and an error reply that is not written ends the call
when the line has been read. -/
theorem pop3InGetAuth_login (enough : ch.stream.length < fuel)
    (hears : Pop3Hears opt tlsFlags tlsState fuel ch) :
    (∀ lines name ch', Pop3Reaches opt tlsFlags tlsState fuel ch lines name ch' →
      name.map CString.content = lastUser lines) ∧
    (∀ auth last, (pop3InGetAuth opt tlsFlags tlsState).run Channel.step fuel ch =
      .done auth last → auth.status = 0 →
      ∃ lines user ch' line rest command passwd,
        Pop3Reaches opt tlsFlags tlsState fuel ch lines (some user) ch' ∧
        lastUser lines = some user.content ∧ ch'.stream = line ++ lf :: rest ∧ lf ∉ line ∧
        IsPass command ∧ withoutCr line = command ++ space :: passwd.content ∧
        auth = ⟨0, some (Auth.setPwd (some user) (some passwd)), none⟩) ∧
    ∀ lines name ch' line rest t q, Pop3Reaches opt tlsFlags tlsState fuel ch lines name ch' →
      ch'.stream = line ++ lf :: rest → lf ∉ line → lineTokens (words false line) = t :: q →
      pop3Faulty opt ch'.conn.type name t q = true ∨ pop3Unknown opt t = true →
      ch'.conn.write.1 = false →
      ∃ middle, ch'.Reaches middle rest ∧
        (pop3InGetAuth opt tlsFlags tlsState).run Channel.step fuel ch =
          .done (InAuth.plain (-1)) middle.written := by
  have named {lines : List (List Byte)} {name : Option CString} {ch' : Channel}
      (reached : Pop3Reaches opt tlsFlags tlsState fuel ch lines name ch') :
      name.map CString.content = lastUser lines := by
    have ⟨capability, built, path⟩ := reached
    exact (reaches_named enough hears built path).1
  refine ⟨fun _ _ _ => named, ?_, ?_⟩
  · intro auth last ran credentials
    have ⟨lines, user, ch', line, rest, command, passwd, reached, arrives, whole, pass, text,
      returned⟩ := returned_credentials enough hears ran credentials
    exact ⟨lines, user, ch', line, rest, command, passwd, reached, (named reached).symm, arrives,
      whole, pass, text, returned⟩
  · intro lines name ch' line rest t q reached arrives whole tokens wrong unwritten
    have heard := hears lines name ch' line rest reached arrives whole
    have ⟨capability, built, path⟩ := reached
    have ⟨_, taken⟩ := reaches_named enough hears built path
    have short : ch'.stream.length < fuel := by
      dsimp only at taken
      omega
    have ⟨middle, left, final⟩ :=
      round_untold capability arrives whole short heard tokens wrong unwritten
    exact ⟨middle, left, run_reaches enough hears built path final⟩

end Runs

/-- What a run returned, where it did. -/
def returnedAuth (outcome : Outcome Channel Fault InAuth) : Option InAuth :=
  match outcome with
  | .done auth _ => some auth
  | _ => none

theorem returnedAuth_some {outcome : Outcome Channel Fault InAuth} {auth : InAuth}
    (same : returnedAuth outcome = some auth) : ∃ last, outcome = .done auth last := by
  unfold returnedAuth at same
  split at same
  · cases same
    exact ⟨_, rfl⟩
  · cases same

/-- A client that names itself twice before it gives its password. -/
def namedTwice : Channel := Channel.reading [bytes "USER a\r\nuser b\r\nPASS x  y\r\n"]

/-- Its credentials are the second name and the password with both spaces. -/
theorem pop3InGetAuth_twice :
    ∃ lines user ch' line rest command passwd,
      Pop3Reaches Options.sample 0 0 64 namedTwice lines (some user) ch' ∧
      lastUser lines = some user.content ∧ ch'.stream = line ++ lf :: rest ∧ lf ∉ line ∧
      IsPass command ∧ withoutCr line = command ++ space :: passwd.content ∧
      (⟨0, some (Auth.setPwd (some (lit "b")) (some (lit "x  y"))), none⟩ : InAuth) =
        ⟨0, some (Auth.setPwd (some user) (some passwd)), none⟩ := by
  have hears : Pop3Hears Options.sample 0 0 64 namedTwice :=
    hears_short (by decide) rfl (by decide) (by decide)
  have ⟨last, ran⟩ := @returnedAuth_some
    ((pop3InGetAuth Options.sample 0 0).run Channel.step 64 namedTwice)
    ⟨0, some (Auth.setPwd (some (lit "b")) (some (lit "x  y"))), none⟩ (by decide +kernel)
  exact (pop3InGetAuth_login (by decide) hears).2.1 _ last ran rfl

/-- A client that gives a password before a name and does not get the error reply. -/
def unnamed : Channel :=
  { Channel.reading [bytes "PASS x\r\n"] with
    conn := { (Channel.reading [bytes "PASS x\r\n"]).conn with writes := [false] } }

/-- It is given credentials without a name. -/
theorem pop3InGetAuth_unnamed :
    ¬ ∀ opt tlsFlags tlsState fuel ch auth last, ch.stream.length < fuel →
      (pop3InGetAuth opt tlsFlags tlsState).run Channel.step fuel ch = .done auth last →
      auth.status = 0 →
      ∃ user passwd, auth.auth = some (Auth.setPwd (some user) (some passwd)) := by
  intro always
  have ⟨last, ran⟩ := @returnedAuth_some
    ((pop3InGetAuth Options.sample 0 0).run Channel.step 64 unnamed)
    ⟨0, some (Auth.setPwd none (some (lit "x"))), none⟩ (by decide +kernel)
  have ⟨user, passwd, same⟩ := always _ _ _ _ _ _ _ (by decide) ran rfl
  cases same

end Perdition
