import Perdition.Verif.Chains
import Perdition.Verif.OwnGreetings
import Perdition.Verif.Pop3Login

/-!
# POP3 behind POP3

One instance of the program logs in to another by `USER` and `PASS`. The name and the password that
the second takes from the lines are those the first was given, and the first learns whether they were
accepted.
-/
namespace Perdition

open Lib Program

/-! ## Texts of lines -/

/-- A text that a line can end with. -/
structure LineText (text : CString) : Prop where
  /-- There is one. -/
  some_ : text.content ≠ []
  /-- It is in one line. -/
  plain : ∀ b ∈ text.content, b ≠ cr ∧ b ≠ lf

/-- A text that is one word of a line. -/
structure LineWord (word : CString) : Prop extends LineText word where
  /-- It has no space. -/
  whole : space ∉ word.content

section Words

variable {quotes : Bool} {text : CString}

theorem LineText.noCr (given : LineText text) : cr ∉ text.content :=
  fun member => (given.plain cr member).1 rfl

theorem LineText.noLf (given : LineText text) : lf ∉ text.content :=
  fun member => (given.plain lf member).2 rfl

/-- Without carriage returns it is the same. -/
theorem LineText.withoutCr (given : LineText text) : withoutCr (text.content ++ [cr]) = text.content := by
  have same : Perdition.withoutCr text.content = text.content := List.filter_eq_self.mpr
    fun b member => decide_eq_true (given.plain b member).1
  rw [Perdition.withoutCr, List.filter_append, ← Perdition.withoutCr, same]
  exact List.append_nil _

/-- The words of the end of a line, joined by spaces, are the text. -/
theorem LineText.words_join (given : LineText text) (fits : text.length + 1 < maxLineLength) :
    cstr (List.intercalate [space] (words quotes (text.content ++ [cr]))) = text := by
  rw [Perdition.words_join quotes (by rw [List.length_append]; exact fits), given.withoutCr, cstr_self]

/-- Bytes without a space are one word, where quotes are not known. -/
theorem wordsFrom_plain {bytes_ : List Byte} (plain : ∀ b ∈ bytes_, b ≠ cr ∧ b ≠ space) :
    ∀ word : List Byte, word.length + bytes_.length < maxLineLength →
      wordsFrom false word false bytes_ = [word ++ bytes_] := by
  induction bytes_ with
  | nil => exact fun word _ => by rw [List.append_nil, wordsFrom]
  | cons b bytes_ ih =>
    intro word short
    obtain ⟨⟨noCr, noSpace⟩, others⟩ := List.forall_mem_cons.mp plain
    rw [List.length_cons] at short
    rw [wordsFrom, if_neg noCr, if_neg fun both => noSpace both.1, if_neg (by omega), Bool.false_and,
      if_neg Bool.false_ne_true, ih others (word ++ [b]) (by
        rw [List.length_append, List.length_singleton]
        omega), List.append_assoc, List.singleton_append]

/-- A word at the end of a line. -/
theorem LineWord.words (given : LineWord text) (fits : text.length < maxLineLength) :
    words false (text.content ++ [cr]) = [text.content] := by
  rw [← words_withoutCr, given.withoutCr, Perdition.words]
  exact wordsFrom_plain (fun b member => ⟨(given.plain b member).1,
    fun same => given.whole (same ▸ member)⟩) [] (by rw [List.length_nil, Nat.zero_add]; exact fits)

end Words

/-! ## The client's side -/

/-- A command or a reply of POP3 with a text. -/
def pop3Line (command text : CString) : List Byte :=
  command.content ++ space :: text.content ++ crlf

/-- The reply to `USER`. -/
def userSet (user : CString) : CString := lit "USER " ++ user ++ lit " set, mate"

/-- The first words of replies. -/
def Pop3Status (status : CString) : Prop := status = lit "+OK" ∨ status = lit "-ERR"

/-- They are plain, and the program wants the first. -/
theorem Pop3Status.known {status : CString} (known : Pop3Status status) :
    (∀ b ∈ status.content, b ≠ cr ∧ b ≠ space ∧ b ≠ dquote) ∧ lf ∉ status.content ∧
      Plain status.content ∧ status.length ≤ 4 ∧
      tokenCmp pop3OkToken ⟨status.content, tokenNone⟩ = decide (status = lit "+OK") := by
  rcases known with same | same
  · rw [same]
    decide +kernel
  · rw [same]
    decide +kernel

theorem verdict_status (opt : Options) (refusal : Option CString) :
    Pop3Status (Protocol.pop3.verdict opt refusal).1 := by
  cases refusal with
  | none => exact .inl rfl
  | some reason => exact .inr rfl

theorem isUser (flag : Flag) (other : CString) :
    pop3IsCmd ⟨bytes "USER", flag⟩ other =
      decide (bytes "user" = (cstr (other.content.take 4)).content.map toLower) :=
  isCmd_spelled (show (bytes "USER").map toLower = bytes "user" by decide) (by decide) flag other

/-- The reply to `USER` is in one line, as the name is. -/
theorem userSet_line {user : CString} (named : LineText user) : LineText (userSet user) := by
  have front : ∀ b ∈ (lit "USER ").content, b ≠ cr ∧ b ≠ lf := by decide +kernel
  have back : ∀ b ∈ (lit " set, mate").content, b ≠ cr ∧ b ≠ lf := by decide +kernel
  refine ⟨?_, fun b member => ?_⟩
  · simp [userSet, named.some_]
  · rw [userSet, CString.content_append, CString.content_append, List.mem_append, List.mem_append] at member
    rcases member with (inside | inside) | inside
    · exact front b inside
    · exact named.plain b inside
    · exact back b inside

theorem length_userSet (user : CString) : (userSet user).length = user.length + 15 := by
  have front : (lit "USER ").content.length = 5 := by decide
  have back : (lit " set, mate").content.length = 10 := by decide
  simp only [userSet, CString.length, CString.content_append, List.length_append, front, back]
  omega

/-- `USER` with a name sets it. -/
theorem pop3InCommand_user (opt : Options) (capability : CString) {user : CString}
    (named : LineWord user) (name : Option CString) :
    pop3InCommand opt capability ⟨bytes "USER", tokenNone⟩ [⟨user.content, tokenEol⟩] name =
      pop3WriteStr nullFlag (some (lit "+OK")) (some (userSet user)) >>= fun _ =>
        pure (.inl (some user)) := by
  have null_ : Token.isNull ⟨bytes "USER", tokenNone⟩ = false := by decide
  have filled : Token.isNull ⟨user.content, tokenEol⟩ = false :=
    List.isEmpty_eq_false_iff.mpr named.some_
  have size : Token.len ⟨bytes "USER", tokenNone⟩ = 4 := by decide
  have capa := (isUser tokenNone (lit "CAPA")).trans (show _ = false by decide)
  have stls := (isUser tokenNone (lit "STLS")).trans (show _ = false by decide)
  have command := (isUser tokenNone (lit "USER")).trans (show _ = true by decide)
  have string : tokenToString ⟨user.content, tokenEol⟩ noStrip = some user :=
    (tokenToString_noStrip _).trans (by rw [cstr_self])
  simp [pop3InCommand, pop3InErrIf, pop3InLoginCmd, pop3InUser, null_, filled, size, capa, stls,
    command, string, userSet]

section Server

variable {opt : Options} {platform : Platform} {fuel : Nat} {history : List (Byte ⊕ Byte)}
  {rest : List Byte} {user passwd : CString}

/-- A message that fits is sent. -/
theorem comes_pop3WriteStr {command str : CString} (plain : Plain command.content)
    (fits : command.length + str.length + 3 ≤ maxText) :
    ((pop3WriteStr nullFlag (some command) (some str)).with .server).Comes fuel history rest 0
      (history ++ said (pop3Line command str)) rest := by
  rw [pop3WriteStr_argument plain fits]
  exact comes_send _

/-- What comes before the line feed. -/
def pop3Front (command text : CString) : List Byte :=
  command.content ++ space :: (text.content ++ [cr])

theorem pop3Line_front (command text : CString) :
    pop3Line command text = pop3Front command text ++ [lf] := by
  simp [pop3Line, pop3Front, crlf]

theorem pop3Line_append (command text : CString) (rest : List Byte) :
    pop3Line command text ++ rest = pop3Front command text ++ lf :: rest := by
  rw [pop3Line_front, List.append_assoc, List.singleton_append]

/-- The line of a command with a text is whole. -/
theorem pop3Front_whole {command text : CString} (plain : lf ∉ command.content)
    (given : LineText text) : lf ∉ pop3Front command text := by
  simp only [pop3Front, List.mem_append, List.mem_cons, not_or]
  exact ⟨plain, by decide, given.noLf, by decide⟩

/-- The words of a line begin with its command. -/
theorem words_pop3Front {command text : CString}
    (plain : ∀ b ∈ command.content, b ≠ cr ∧ b ≠ space ∧ b ≠ dquote)
    (short : command.length < maxLineLength) :
    lineTokens (words (tokenPop3.has tokenImap4) (pop3Front command text)) =
      ⟨command.content, tokenNone⟩ :: lineTokens (words false (text.content ++ [cr])) := by
  rw [show tokenPop3.has tokenImap4 = false by decide, pop3Front, Perdition.words,
    wordsFrom_space false plain _ [] (by rw [List.length_nil, Nat.zero_add]; exact short),
    List.nil_append, lineTokens_cons (words_ne_nil false _)]

/-- A line of POP3 is read. -/
theorem comes_pop3Line {command text : CString} (whole : lf ∉ command.content)
    (given : LineText text) (enough : (pop3Line command text ++ rest).length < fuel) :
    ((readLine none tokenPop3 0).with .server).Comes fuel history (pop3Line command text ++ rest)
      (some (lineTokens (words (tokenPop3.has tokenImap4) (pop3Front command text)), []))
      (history ++ heard (pop3Line command text)) rest := by
  rw [pop3Line_append] at enough ⊢
  rw [pop3Line_front]
  exact comes_line lineFlag_pop3 (pop3Front_whole whole given) enough

/-- The round that reads `USER`. -/
theorem comes_user (capability : CString) (named : LineWord user)
    (fits : user.length + 64 ≤ maxText) (name : Option CString)
    (enough : (pop3Line (lit "USER") user ++ rest).length < fuel) :
    ((pop3InRound opt capability name).with .server).Comes fuel history
      (pop3Line (lit "USER") user ++ rest) (.inl (some user))
      (history ++ heard (pop3Line (lit "USER") user) ++
        said (pop3Line (lit "+OK") (userSet user))) rest := by
  have limit : maxText < maxLineLength := by decide
  have words_ := @words_pop3Front (lit "USER") user (by decide +kernel) (by decide +kernel)
  rw [named.words (by omega)] at words_
  have line := @comes_pop3Line fuel history rest (lit "USER") user (by decide +kernel) named.toLineText enough
  rw [words_] at line
  refine comes_bind line ?_
  change ((pop3InCommand opt capability ⟨bytes "USER", tokenNone⟩ [⟨user.content, tokenEol⟩]
    name).with .server).Comes _ _ _ _ _ _
  rw [pop3InCommand_user opt capability named name]
  have room : (lit "+OK").length = 3 := by decide
  exact comes_bind (comes_pop3WriteStr (by decide) (by rw [length_userSet, room]; omega))
    (comes_pure _)

/-- The round that reads `PASS`. -/
theorem comes_pass (capability : CString) (given : LineText passwd)
    (fits : passwd.length + 64 ≤ maxText)
    (enough : (pop3Line (lit "PASS") passwd ++ rest).length < fuel) :
    ((pop3InRound opt capability (some user)).with .server).Comes fuel history
      (pop3Line (lit "PASS") passwd ++ rest)
      (.inr ⟨0, some (Auth.setPwd (some user) (some passwd)), none⟩)
      (history ++ heard (pop3Line (lit "PASS") passwd)) rest := by
  have limit : maxText < maxLineLength := by decide
  have line := @comes_pop3Line fuel history rest (lit "PASS") passwd (by decide +kernel) given enough
  rw [words_pop3Front (by decide +kernel) (by decide +kernel)] at line
  have some_ : lineTokens (words false (passwd.content ++ [cr])) ≠ [] := by
    intro empty_
    have bufs := lineTokens_buf (words false (passwd.content ++ [cr]))
    rw [empty_] at bufs
    exact words_ne_nil _ _ bufs.symm
  have string : queueToString (lineTokens (words false (passwd.content ++ [cr]))) = some passwd := by
    rw [queueToString_lineTokens (words_ne_nil _ _), given.words_join (by omega)]
  refine comes_bind line ?_
  change ((pop3InCommand opt capability ⟨bytes "PASS", tokenNone⟩ _ (some user)).with
    .server).Comes _ _ _ _ _ _
  have spelled : IsPass (bytes "PASS") := by
    rw [IsPass]
    decide
  rw [pop3InCommand_pass opt capability spelled user some_ string]
  exact comes_pure _

end Server

/-! ## The conversation -/

/-- A login as the server has it. -/
def pop3Login (greeting user passwd : CString) (verdict : CString × CString) :
    List (Byte ⊕ Byte) :=
  said (pop3Line (lit "+OK") greeting) ++ heard (pop3Line (lit "USER") user) ++
    said (pop3Line (lit "+OK") (userSet user)) ++ heard (pop3Line (lit "PASS") passwd) ++
    said (pop3Line verdict.1 verdict.2)

/-- Texts that POP3 carries from one instance to another: each is in one line that fits, and the user
name is one word. -/
structure Pop3Carries (greeting user passwd verdict : CString) : Prop where
  /-- The greeting. -/
  greets : LineText greeting ∧ greeting.length + 64 ≤ maxText
  /-- The user name. -/
  names : LineWord user ∧ user.length + 64 ≤ maxText
  /-- The password. -/
  proves : LineText passwd ∧ passwd.length + 64 ≤ maxText
  /-- The answer. -/
  answers : LineText verdict ∧ verdict.length + 64 ≤ maxText

section Chain

variable {opt : Options} {platform : Platform} {greeting user passwd : CString} {fuel : Nat}

/-- The server's half of a login. -/
theorem comes_serves {refusal : Auth → Option CString} {verdict : CString × CString}
    (decides : Protocol.pop3.verdict opt (refusal (Auth.setPwd (some user) (some passwd))) = verdict)
    (carries : Pop3Carries greeting user passwd verdict.2)
    (greets : greetingStr platform (lit "POP3 perditon ready on") = some greeting)
    {capability : CString} (built : pop3InCapability opt opt.sslMode sslModeEmpty = some capability)
    (enough : (pop3Line (lit "USER") user ++ pop3Line (lit "PASS") passwd).length < fuel) :
    ((Protocol.pop3.serves opt platform refusal).with .server).Comes fuel []
      (pop3Line (lit "USER") user ++ pop3Line (lit "PASS") passwd)
      (some ⟨0, some (Auth.setPwd (some user) (some passwd)), none⟩)
      (pop3Login greeting user passwd verdict) [] := by
  have room : (lit "+OK").length = 3 := by decide
  have short := enough
  rw [List.length_append] at short
  obtain ⟨rounds, rfl⟩ : ∃ rounds, fuel = rounds + 1 + 1 := by
    have positive : 2 ≤ (pop3Line (lit "USER") user).length := by
      simp [pop3Line, crlf]
      omega
    exact ⟨fuel - 2, by omega⟩
  have first : Protocol.pop3.greeting opt platform =
      pop3WriteStr nullFlag (some (lit "+OK")) (some greeting) := by
    rw [Protocol.greeting, greets]
  have getAuth : Protocol.pop3.inGetAuth opt platform opt.sslMode sslModeEmpty =
      .loop (pop3InRound opt capability) (none : Option CString) := by
    rw [Protocol.inGetAuth, pop3InGetAuth, built]
  have greet := @comes_pop3WriteStr (rounds + 1 + 1) []
    (pop3Line (lit "USER") user ++ pop3Line (lit "PASS") passwd) (lit "+OK") greeting (by decide)
    (by rw [room]; have := carries.greets.2; omega)
  rw [Protocol.serves, first, getAuth]
  have user_ := @comes_user opt (rounds + 1 + 1)
    (said (pop3Line (lit "+OK") greeting)) (pop3Line (lit "PASS") passwd) user capability
    carries.names.1 carries.names.2 none enough
  have passwd_ := @comes_pass opt (rounds + 1 + 1) (said (pop3Line (lit "+OK") greeting) ++
    heard (pop3Line (lit "USER") user) ++ said (pop3Line (lit "+OK") (userSet user))) [] user passwd
    capability carries.proves.1 carries.proves.2 (by rw [List.append_nil]; omega)
  rw [List.append_nil] at passwd_
  have rounds_ : LoopComes (fun name => (pop3InRound opt capability name).with .server)
      (rounds + 1 + 1) (rounds + 1 + 1) none _ _ _ _ _ := comes_again user_ (comes_last passwd_)
  refine comes_bind greet ?_
  change Exchange.Comes (.loop (fun name => (pop3InRound opt capability name).with .server)
    (none : Option CString) >>= fun result =>
      (Protocol.pop3.answers opt refusal result).with .server) _ _ _ _ _ _
  refine comes_bind (comes_loop rounds_) ?_
  rw [Protocol.answers_credentials .pop3 rfl decides]
  have known := (decides ▸ verdict_status opt _ : Pop3Status verdict.1).known
  exact comes_bind (comes_pop3WriteStr known.2.2.1 (by
    have := carries.answers.2
    have := known.2.2.2.1
    omega)) (comes_pure _)

/-! ## The other half -/

/-- A response is read. -/
theorem comes_pop3Response {history : List (Byte ⊕ Byte)} {rest : List Byte} {status text : CString}
    (known : Pop3Status status) (given : LineText text) {capture : Option Capture}
    (fits : Fits capture (pop3Front status text))
    (enough : (pop3Line status text ++ rest).length < fuel) :
    (pop3OutResponse pop3OkToken capture).Comes fuel history (pop3Line status text ++ rest)
      ⟨if status = lit "+OK" then 1 else 0, lineTokens (words false (text.content ++ [cr])),
        Capture.keep capture (pop3Front status text)⟩
      (history ++ heard (pop3Line status text)) rest := by
  obtain ⟨plain, whole, -, short, compared⟩ := known.known
  have limit : 4 < maxLineLength := by decide
  rw [pop3Line_append] at enough ⊢
  have line := @comes_readLine fuel history rest tokenPop3 lineFlag_pop3 capture _
    (pop3Front_whole whole given) fits enough
  rw [words_pop3Front plain (by omega), ← pop3Line_front] at line
  refine comes_bind line ?_
  dsimp only
  rw [compared]
  simp only [decide_eq_true_eq]
  exact comes_pure _

/-- The real server's greeting is accepted where it is not the program's own. -/
theorem comes_pop3OutSetup {greeting own : CString} (greets : LineText greeting)
    (fits : greeting.length + 1 < maxLineLength)
    (named : greetingStr platform (lit "POP3 perditon ready on") = some own)
    (other : greeting ≠ own) (plain : opt.sslMode.has sslModeTlsOutgoing = false)
    {rest : List Byte} (enough : (pop3Line (lit "+OK") greeting ++ rest).length < fuel) (tag : Token) :
    (Protocol.pop3.outSetup opt platform tag).Comes fuel []
      (pop3Line (lit "+OK") greeting ++ rest) (1, tag) (heard (pop3Line (lit "+OK") greeting)) rest := by
  have response := @comes_pop3Response fuel [] rest (lit "+OK") greeting (.inl rfl) greets none
    (fun c none_ => by cases none_) enough
  have string : queueToString (lineTokens (words false (greeting.content ++ [cr]))) = some greeting := by
    rw [queueToString_lineTokens (words_ne_nil _ _), greets.words_join fits]
  have status : (pop3OutSetup opt platform).Comes fuel [] (pop3Line (lit "+OK") greeting ++ rest) 1
      (heard (pop3Line (lit "+OK") greeting)) rest := by
    refine comes_bind response ?_
    dsimp only
    rw [if_pos rfl, if_neg (by decide), string]
    dsimp only
    rw [named]
    dsimp only
    rw [if_neg (strcmp_other platform other), plain]
    exact comes_pure _
  exact comes_bind status (comes_pure _)

/-- The other half of `USER` and `PASS`. -/
theorem comes_pop3OutAuthenticate {history : List (Byte ⊕ Byte)} {rest : List Byte}
    {reply : CString × CString} (named : LineWord user ∧ user.length + 64 ≤ maxText)
    (proved : passwd.length + 64 ≤ maxText) (known : Pop3Status reply.1) (line : LineText reply.2)
    {auth : Auth} (name : auth.authenticationId = some user) (secret : auth.passwd = some passwd)
    {capture : Option Capture} (fits : Fits capture (pop3Front reply.1 reply.2)) (tag : Token)
    (enough : (pop3Line (lit "+OK") (userSet user) ++
      (pop3Line reply.1 reply.2 ++ rest)).length < fuel) :
    (pop3OutAuthenticate auth tag capture).Comes fuel history
      (pop3Line (lit "+OK") (userSet user) ++ (pop3Line reply.1 reply.2 ++ rest))
      ⟨if reply.1 = lit "+OK" then 1 else 0, tag, Capture.keep capture (pop3Front reply.1 reply.2)⟩
      (history ++ said (pop3Line (lit "USER") user) ++
        heard (pop3Line (lit "+OK") (userSet user)) ++ said (pop3Line (lit "PASS") passwd) ++
        heard (pop3Line reply.1 reply.2)) rest := by
  have room : (lit "USER").length = 4 ∧ (lit "PASS").length = 4 := by decide
  have less := enough
  rw [List.length_append] at less
  have user_ := @comes_pop3WriteStr fuel history
    (pop3Line (lit "+OK") (userSet user) ++ (pop3Line reply.1 reply.2 ++ rest)) (lit "USER") user
    (by decide) (by omega)
  have set_ := @comes_pop3Response fuel (history ++ said (pop3Line (lit "USER") user))
    (pop3Line reply.1 reply.2 ++ rest) (lit "+OK") (userSet user) (.inl rfl)
    (userSet_line named.1.toLineText) none (fun c none_ => by cases none_) enough
  have passwd_ := @comes_pop3WriteStr fuel (history ++ said (pop3Line (lit "USER") user) ++
    heard (pop3Line (lit "+OK") (userSet user))) (pop3Line reply.1 reply.2 ++ rest) (lit "PASS")
    passwd (by decide) (by omega)
  have last := @comes_pop3Response fuel (history ++ said (pop3Line (lit "USER") user) ++
    heard (pop3Line (lit "+OK") (userSet user)) ++ said (pop3Line (lit "PASS") passwd)) rest reply.1
    reply.2 known line capture fits (by omega)
  rw [pop3OutAuthenticate, name, secret]
  refine comes_bind user_ (comes_bind set_ ?_)
  exact comes_bind passwd_ (comes_bind last (comes_pure _))

/-- The other half of a login. -/
theorem comes_logsIn {own : CString} {verdict : CString × CString}
    (carries : Pop3Carries greeting user passwd verdict.2) (known : Pop3Status verdict.1)
    (named : greetingStr platform (lit "POP3 perditon ready on") = some own)
    (other : greeting ≠ own) (plain : opt.sslMode.has sslModeTlsOutgoing = false) {auth : Auth}
    (name : auth.authenticationId = some user) (secret : auth.passwd = some passwd)
    {capture : Option Capture} (fits : Fits capture (pop3Front verdict.1 verdict.2)) (tag : Token)
    (enough : (pop3Line (lit "+OK") greeting ++ (pop3Line (lit "+OK") (userSet user) ++
      pop3Line verdict.1 verdict.2)).length < fuel) :
    (Protocol.pop3.logsIn opt platform auth tag capture).Comes fuel []
      (pop3Line (lit "+OK") greeting ++ (pop3Line (lit "+OK") (userSet user) ++
        pop3Line verdict.1 verdict.2))
      (some ⟨if verdict.1 = lit "+OK" then 1 else 0, tag,
        Capture.keep capture (pop3Front verdict.1 verdict.2)⟩)
      (mirrored (pop3Login greeting user passwd verdict)) [] := by
  have limit : maxText < maxLineLength := by decide
  have less := enough
  rw [List.length_append] at less
  have setup := @comes_pop3OutSetup opt platform fuel greeting own carries.greets.1
    (by have := carries.greets.2; omega) named other plain _ enough tag
  have authenticate := @comes_pop3OutAuthenticate user passwd fuel
    (heard (pop3Line (lit "+OK") greeting)) [] verdict carries.names carries.proves.2 known
    carries.answers.1 auth name secret capture fits tag (by rw [List.append_nil]; omega)
  rw [List.append_nil] at authenticate
  have same : mirrored (pop3Login greeting user passwd verdict) =
      heard (pop3Line (lit "+OK") greeting) ++ said (pop3Line (lit "USER") user) ++
        heard (pop3Line (lit "+OK") (userSet user)) ++ said (pop3Line (lit "PASS") passwd) ++
        heard (pop3Line verdict.1 verdict.2) := by
    simp only [pop3Login, mirrored_append, mirrored_heard, mirrored_said]
  rw [same]
  exact comes_bind setup (comes_bind authenticate (comes_pure _))

end Chain

/-- A platform with another host name. -/
def Platform.other : Platform := { Platform.sample with greetingHost := some (lit "proxy") }

end Perdition
