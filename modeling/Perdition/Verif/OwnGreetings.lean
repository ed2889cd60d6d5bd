import Perdition.Verif.Answers
import Perdition.Verif.Capabilities
import Perdition.Verif.Rightmost
import Perdition.Verif.WordStrings

/-!
# Which greetings are taken for the program's own

`out_setup` of POP3 and IMAP joins the words of the real server's greeting and compares the string with the
greeting of the program. The string ends at the first NUL and has no carriage return in it.
-/
namespace Perdition

open Lib Program

/-! ## The greeting of the program -/

/-- The words before the greeting: a tag, with its space, and the response. -/
def Protocol.okWords : Protocol → List Byte × List Byte
  | .imap4 => (bytes "* ", bytes "OK")
  | _ => ([], bytes "+OK")

/-- The line that has a text as its greeting. -/
def Protocol.greetingLine (protocol : Protocol) (text : CString) : List Byte :=
  protocol.okWords.1 ++ protocol.okWords.2 ++ space :: text.content ++ crlf

/-- The text of the greeting that `out_setup` compares. -/
def Protocol.greetingText (protocol : Protocol) (opt : Options) (platform : Platform) : Option CString :=
  match protocol with
  | .imap4 => (imap4GreetingStr opt platform).join
  | _ => greetingStr platform (lit "POP3 perditon ready on")

/-- What a dialogue tells the client, where nothing is left in the write buffer. -/
def toldBy {α : Type} (dialogue : Dialogue α) : List (List Byte × Bool) :=
  (Program.run Talk.clientStep 1 dialogue (Talk.reading [])).state.log.told

theorem toldBy_send (content : List Byte) : toldBy (send content) = [(content, true)] := rfl

/-- Where the format is expanded and sent by one write, all of it had room in the write buffer. -/
theorem strVwrite_send {flag : Flag} (noEnd : flag.has writeStrNoCllf) {nargs : Nat} (some_ : nargs ≠ 0)
    {fmt : CString} {text content : List Byte} (clean : 0 ∉ content)
    (whole : strVwrite flag nargs fmt (some text) = send content) :
    content = text ∧ text.length ≤ maxText := by
  have told := congrArg toldBy whole
  rw [toldBy_send] at told
  have slow : ¬ (nargs = 0 ∧ flag.has writeStrNoCllf) := fun both => some_ both.1
  by_cases count : fmtArgs fmt.content = nargs
  · by_cases fits : text.length ≤ maxText
    · rw [strVwrite_text slow count fits, if_pos noEnd, List.append_nil, toldBy_send] at told
      exact ⟨congrArg Prod.fst (List.singleton_inj.mp told.symm), fits⟩
    · exfalso
      have filled : strVwriteBuf flag nargs fmt (some text) =
          some ⟨text.take maxText ++ [0], none, text.length⟩ := by
        rw [strVwriteBuf, if_neg slow, if_neg (not_not_intro count)]
        dsimp only
        rw [if_pos noEnd]
        rfl
      have front : (text.take maxText ++ [0]).take text.length = text.take maxText ++ [0] := by
        apply List.take_of_length_le
        rw [List.length_append, List.length_take, List.length_singleton]
        omega
      have nul (stale : List Byte) : 0 ∈ text.take maxText ++ [0] ++ stale ++ [] := by simp
      rw [strVwrite, filled] at told
      dsimp only at told
      rw [front] at told
      split at told
      · cases told
      · split at told
        · have same : text.take maxText ++ [0] ++ _ ++ [] = content :=
            congrArg Prod.fst (List.singleton_inj.mp told)
          exact clean (same ▸ nul _)
        · have same : text.take maxText ++ [0] ++ [] ++ [] = content :=
            congrArg Prod.fst (List.singleton_inj.mp told)
          exact clean (same ▸ nul [])
  · have none_ : strVwriteBuf flag nargs fmt (some text) = none := by
      rw [strVwriteBuf, if_neg slow, if_pos count]
    rw [strVwrite, none_] at told
    cases told

/-- A string behind a plain front. -/
theorem strWrite_send {front content : List Byte} {message : CString} (plain : Plain front)
    (noNul : 0 ∉ front) (clean : 0 ∉ content)
    (whole : strWrite (nullFlag ||| writeStrNoCllf) 1 (cstr (front ++ (bytes "%s" ++ crlf)))
      [.str message] = send content) :
    content = front ++ (message.content ++ crlf) ∧
      (front ++ (message.content ++ crlf)).length ≤ maxText := by
  have format : (cstr (front ++ (bytes "%s" ++ crlf))).content = front ++ (bytes "%s" ++ crlf) := by
    apply cstr_content
    rw [List.mem_append, not_or]
    exact ⟨noNul, by decide⟩
  rw [strWrite, format, vformat_plain_append plain, vformat_string] at whole
  exact strVwrite_send nullFlag_noEnd (by decide) clean whole

theorem greetingLine_pop3 (text : CString) :
    Protocol.greetingLine .pop3 text = bytes "+OK " ++ (text.content ++ crlf) := by
  have front : bytes "+OK " = bytes "+OK" ++ [space] := by decide
  rw [front, List.append_assoc, List.singleton_append]
  exact List.append_assoc _ _ _

theorem greetingLine_imap4 (text : CString) :
    Protocol.greetingLine .imap4 text = bytes "* OK " ++ (text.content ++ crlf) := by
  have front : bytes "* OK " = bytes "* " ++ bytes "OK" ++ [space] := by decide
  rw [front, List.append_assoc _ [space], List.singleton_append]
  exact List.append_assoc _ _ _

/-- The greeting that is written is the one that is compared, and it is shorter than the write buffer. -/
theorem Protocol.greeting_send {protocol : Protocol} (compares : protocol ≠ .managesieve)
    {opt : Options} {platform : Platform} {text : CString}
    (sent : protocol.greeting opt platform = send (protocol.greetingLine text)) :
    protocol.greetingText opt platform = some text ∧ text.length < maxLineLength := by
  have told := congrArg toldBy sent
  rw [toldBy_send] at told
  have named {front : List Byte} {message : CString}
      (same : front ++ (text.content ++ crlf) = front ++ (message.content ++ crlf))
      (short : (front ++ (message.content ++ crlf)).length ≤ maxText) :
      message = text ∧ text.length < maxLineLength := by
    have equal := List.append_cancel_right (List.append_cancel_left same)
    rw [← equal, List.length_append, List.length_append] at short
    have limit : maxText < maxLineLength := by decide
    change _ + (text.length + _) ≤ maxText at short
    exact ⟨CString.ext equal.symm, by omega⟩
  have clean {front : List Byte} (noNul : 0 ∉ front) : 0 ∉ front ++ (text.content ++ crlf) := by
    rw [List.mem_append, List.mem_append, not_or, not_or]
    exact ⟨noNul, text.noNul, by decide⟩
  cases protocol with
  | managesieve => exact absurd rfl compares
  | pop3 =>
    rw [greeting] at sent told
    cases given : greetingStr platform (lit "POP3 perditon ready on") with
    | none =>
      rw [given] at told
      cases told
    | some message =>
      rw [given, greetingLine_pop3] at sent
      have ⟨same, short⟩ :=
        @strWrite_send (bytes "+OK ") _ _ (by decide) (by decide) (clean (by decide)) sent
      have ⟨equal, room⟩ := named same short
      exact ⟨given.trans (congrArg some equal), room⟩
  | imap4 =>
    rw [greeting] at sent told
    cases given : imap4GreetingStr opt platform with
    | none =>
      rw [given] at told
      cases told
    | some found =>
      cases found with
      | none =>
        rw [given] at told
        cases told
      | some message =>
        rw [given, greetingLine_imap4] at sent
        have ⟨same, short⟩ :=
          @strWrite_send (bytes "* OK ") _ _ (by decide) (by decide) (clean (by decide)) sent
        have ⟨equal, room⟩ := named same short
        exact ⟨(congrArg Option.join given).trans (congrArg some equal), room⟩

/-! ## The greeting of the real server -/

/-- What `out_setup` makes of the first line. -/
def Protocol.greetingAnswer (protocol : Protocol) (line : List Byte) : Response :=
  match protocol with
  | .imap4 => untaggedAnswer imap4OkToken line none
  | _ => match lineTokens (words false line) with
    | [] => ⟨-1, [], none⟩
    | t :: q => ⟨if tokenCmp pop3OkToken t then 1 else 0, q, none⟩

/-- The response that `out_setup` reads first. -/
def Protocol.outGreeting (protocol : Protocol) : Exchange Response :=
  match protocol with
  | .imap4 => imap4OutResponse true none imap4OkToken none
  | _ => pop3OutResponse pop3OkToken none

/-- IMAP has quotes in its words. -/
def Protocol.quotes (protocol : Protocol) : Bool := protocol == .imap4

theorem Protocol.greetingAnswer_capture (protocol : Protocol) (line : List Byte) :
    (protocol.greetingAnswer line).capture = none := by
  have pop3 : (match lineTokens (words false line) with
      | [] => (⟨-1, [], none⟩ : Response)
      | t :: q => ⟨if tokenCmp pop3OkToken t then 1 else 0, q, none⟩).capture = none := by
    split
    · rfl
    · rfl
  cases protocol with
  | pop3 => exact pop3
  | managesieve => exact pop3
  | imap4 =>
    change (untaggedAnswer imap4OkToken line none).capture = none
    rw [untaggedAnswer]
    split
    · unfold imap4OutCheck
      split
      · rfl
      · split
        · rfl
        · rfl
    · rfl

/-- The letters of a response. -/
structure Response.Spelled (ok word : List Byte) : Prop where
  /-- They may be in either case. -/
  letters : word.map toLower = ok.map toLower
  /-- The response is one of the program. -/
  known : ok = bytes "+OK" ∨ ok = bytes "OK"

theorem Response.Spelled.plain {ok word : List Byte} (spelled : Response.Spelled ok word) :
    ∀ b ∈ word, b ≠ cr ∧ b ≠ space ∧ b ≠ dquote := by
  intro b member
  have lower : toLower b ∈ ok.map toLower := spelled.letters ▸ List.mem_map_of_mem member
  have other (c : Byte) (absent : toLower c ∉ (bytes "+OK").map toLower ∧
      toLower c ∉ (bytes "OK").map toLower) : b ≠ c := by
    intro same
    rcases spelled.known with known | known
    · exact absent.1 (known ▸ same ▸ lower)
    · exact absent.2 (known ▸ same ▸ lower)
  exact ⟨other cr (by decide), other space (by decide), other dquote (by decide)⟩

theorem Response.Spelled.short {ok word : List Byte} (spelled : Response.Spelled ok word) :
    word.length < maxLineLength := by
  have length := congrArg List.length spelled.letters
  rw [List.length_map, List.length_map] at length
  rcases spelled.known with known | known
  · rw [length, known]
    decide
  · rw [length, known]
    decide

theorem Response.Spelled.noNul {ok word : List Byte} (spelled : Response.Spelled ok word) : 0 ∉ ok := by
  rcases spelled.known with known | known
  · rw [known]
    decide
  · rw [known]
    decide

/-- A response that is spelled so is the first word. -/
theorem words_spelled (quotes : Bool) {ok word : List Byte} (spelled : Response.Spelled ok word)
    (rest : List Byte) : lineTokens (words quotes (word ++ space :: rest)) =
      ⟨word, tokenNone⟩ :: lineTokens (words quotes rest) ∧
        tokenCmp ⟨ok, tokenDontCare⟩ ⟨word, tokenNone⟩ = true := by
  have first := wordsFrom_space quotes spelled.plain rest [] (by
    rw [List.length_nil, Nat.zero_add]
    exact spelled.short)
  constructor
  · rw [words, first, List.nil_append, lineTokens_cons (words_ne_nil quotes rest)]
  · exact (tokenCmp_iff (.inl spelled.noNul)).mpr ⟨.inr (.inl rfl), spelled.letters.symm⟩

/-- Where the first word is the response, it is spelled so. -/
theorem spelled_words {quotes : Bool} {ok line : List Byte} (known : ok = bytes "+OK" ∨ ok = bytes "OK")
    (clean : cr ∉ line) {t : Token} {q : Queue} (first : lineTokens (words quotes line) = t :: q)
    (same : tokenCmp ⟨ok, tokenDontCare⟩ t = true) :
    q = [] ∨ ∃ word rest, line = word ++ space :: rest ∧ Response.Spelled ok word ∧
      q = lineTokens (words quotes rest) := by
  have noNul : 0 ∉ ok := by
    rcases known with known | known
    · rw [known]
      decide
    · rw [known]
      decide
  cases list : words quotes line with
  | nil => exact absurd list (words_ne_nil quotes line)
  | cons word others =>
    have buf : t.buf = word := by
      have bufs := congrArg (List.map Token.buf) first
      rw [lineTokens_buf, list] at bufs
      exact (List.cons.inj bufs).1.symm
    have spelled : Response.Spelled ok word :=
      ⟨buf ▸ ((tokenCmp_iff (.inl noNul)).mp same).2.symm, known⟩
    have noQuote : dquote ∉ word := fun member => (spelled.plain dquote member).2.2 rfl
    rcases wordsFrom_first spelled.short noQuote line [] clean list with
      ⟨rest, whole, tail⟩ | ⟨none_, _⟩
    · rw [tail] at list
      rw [list, lineTokens_cons (words_ne_nil quotes rest)] at first
      exact .inr ⟨word, rest, whole, spelled, (List.cons.inj first).2.symm⟩
    · rw [none_] at list
      rw [list] at first
      exact .inl (List.cons.inj first).2.symm

theorem Protocol.okWords_known (protocol : Protocol) :
    protocol.okWords.2 = bytes "+OK" ∨ protocol.okWords.2 = bytes "OK" := by
  cases protocol with
  | imap4 => exact .inr rfl
  | pop3 => exact .inl rfl
  | managesieve => exact .inl rfl

/-- A line whose first word is a star. -/
theorem words_star (rest : List Byte) :
    words true (bytes "* " ++ rest) = imap4Untagged :: words true rest :=
  @wordsFrom_space true imap4Untagged (by decide +kernel) rest [] (by decide)

/-- A response is accepted in either case, and what follows its words is the queue. -/
theorem Protocol.greetingAnswer_of {protocol : Protocol} {line word rest : List Byte}
    (begins : withoutCr line = protocol.okWords.1 ++ word ++ space :: rest)
    (spelled : Response.Spelled protocol.okWords.2 word) :
    protocol.greetingAnswer line = ⟨1, lineTokens (words protocol.quotes rest), none⟩ := by
  have ⟨list, same⟩ := words_spelled protocol.quotes spelled rest
  have pop3 (known : protocol.okWords = ([], bytes "+OK")) (plain : protocol.quotes = false) :
      (match lineTokens (words false line) with
        | [] => (⟨-1, [], none⟩ : Response)
        | t :: q => ⟨if tokenCmp pop3OkToken t then 1 else 0, q, none⟩) =
        ⟨1, lineTokens (words protocol.quotes rest), none⟩ := by
    rw [known, List.nil_append] at begins
    rw [known] at same
    rw [plain] at list ⊢
    rw [← words_withoutCr, begins, list]
    dsimp only
    rw [show tokenCmp pop3OkToken ⟨word, tokenNone⟩ = true from same]
    rfl
  cases protocol with
  | pop3 => exact pop3 rfl rfl
  | managesieve => exact pop3 rfl rfl
  | imap4 =>
    have reply : replyWords line = imap4Untagged :: words true (word ++ space :: rest) := by
      rw [replyWords, ← words_withoutCr, begins]
      exact words_star _
    have untagged : UntaggedLine line := by rw [UntaggedLine, reply]; rfl
    have queue : lineQueue line = ⟨word, tokenNone⟩ :: lineTokens (words true rest) := by
      rw [lineQueue, reply]
      exact list
    change untaggedAnswer imap4OkToken line none = _
    rw [untaggedAnswer, if_pos untagged, queue, imap4OutCheck]
    exact if_pos same

/-- An accepted response has been spelled so. -/
theorem Protocol.of_greetingAnswer {protocol : Protocol} {line : List Byte}
    (accepted : (protocol.greetingAnswer line).status = 1) :
    (protocol.greetingAnswer line).q = [] ∨ ∃ word rest,
      withoutCr line = protocol.okWords.1 ++ word ++ space :: rest ∧
        Response.Spelled protocol.okWords.2 word := by
  have clean := not_mem_withoutCr line
  have pop3 (response : Response)
      (same : (match lineTokens (words false line) with
        | [] => (⟨-1, [], none⟩ : Response)
        | t :: q => ⟨if tokenCmp pop3OkToken t then 1 else 0, q, none⟩) = response)
      (accepted : response.status = 1) :
      response.q = [] ∨ ∃ word rest,
        withoutCr line = [] ++ word ++ space :: rest ∧ Response.Spelled (bytes "+OK") word := by
    subst same
    rw [← words_withoutCr] at accepted ⊢
    cases tokens : lineTokens (words false (withoutCr line)) with
    | nil => exact .inl rfl
    | cons t q =>
      rw [tokens] at accepted
      have equal : tokenCmp pop3OkToken t = true := by
        by_contra other
        rw [Bool.not_eq_true] at other
        dsimp only at accepted
        rw [other] at accepted
        exact absurd accepted (by decide)
      rcases spelled_words (.inl rfl) clean tokens equal with none_ | ⟨word, rest, whole, spelled, _⟩
      · exact .inl none_
      · exact .inr ⟨word, rest, whole, spelled⟩
  cases protocol with
  | pop3 => exact pop3 _ rfl accepted
  | managesieve => exact pop3 _ rfl accepted
  | imap4 =>
    change (untaggedAnswer imap4OkToken line none).status = 1 at accepted
    change (untaggedAnswer imap4OkToken line none).q = [] ∨ _
    rw [untaggedAnswer] at accepted ⊢
    by_cases untagged : UntaggedLine line
    · rw [if_pos untagged, lineQueue] at accepted ⊢
      rw [UntaggedLine] at untagged
      rw [replyWords, ← words_withoutCr] at untagged accepted ⊢
      cases list : words true (withoutCr line) with
      | nil => exact absurd list (words_ne_nil true _)
      | cons star others =>
        rw [list, List.head?_cons, Option.some.injEq] at untagged
        rw [list, List.tail_cons] at accepted
        rw [List.tail_cons]
        rcases wordsFrom_first (by rw [untagged]; decide) (by rw [untagged]; decide) _ [] clean list
          with ⟨rest, front, tail⟩ | ⟨none_, _⟩
        · rw [tail] at accepted ⊢
          rw [List.nil_append] at front
          cases tokens : lineTokens (words true rest) with
          | nil => exact .inl rfl
          | cons t q =>
            rw [tokens, imap4OutCheck] at accepted
            rw [imap4OutCheck]
            by_cases equal : tokenCmp imap4OkToken t = true
            · have within : cr ∉ rest := fun member => clean (by rw [front]; simp [member])
              rw [if_pos equal]
              rcases spelled_words (.inr rfl) within tokens equal with
                none_ | ⟨word, more, split_, spelled, _⟩
              · exact .inl none_
              · refine .inr ⟨word, more, ?_, spelled⟩
                rw [front, untagged, split_]
                rfl
            · rw [if_neg equal] at accepted
              exact absurd accepted (by decide)
        · rw [none_] at accepted
          exact absurd accepted (by decide)
    · rw [if_neg untagged] at accepted
      exact absurd accepted (by decide)

/-! ## The runs -/

/-- The greeting of the real server is read and checked. -/
theorem Protocol.run_outGreeting (protocol : Protocol) {fuel : Nat} {t : Talk} {line rest : List Byte}
    (arrives : t.stream = line ++ lf :: rest) (whole : lf ∉ line) (enough : t.stream.length < fuel) :
    protocol.outGreeting.run Talk.step fuel t =
      .done (protocol.greetingAnswer line) (t.hearLine line) := by
  have fits : Fits none line := fun c none_ => nomatch none_
  have pop3 : (pop3OutResponse pop3OkToken none).run Talk.step fuel t =
      .done (match lineTokens (words false line) with
        | [] => (⟨-1, [], none⟩ : Response)
        | t :: q => ⟨if tokenCmp pop3OkToken t then 1 else 0, q, none⟩) (t.hearLine line) := by
    have heard : t.advance rest = t.hearLine line := by
      have front : t.stream = (line ++ [lf]) ++ rest := by
        rw [arrives, List.append_assoc, List.singleton_append]
      rw [Talk.advance_append front, Talk.hearLine, front, List.drop_left' (by simp)]
    rw [pop3OutResponse, run_bind, Talk.run_readLineInto lineFlag_pop3 0 none enough, arrives,
      scanInto_line lineFlag_pop3 0 rest whole fits, show tokenPop3.has tokenImap4 = false by decide]
    cases tokens : lineTokens (words false line) with
    | nil => exact congrArg (Outcome.done _) heard
    | cons first q => exact congrArg (Outcome.done _) heard
  cases protocol with
  | pop3 => exact pop3
  | managesieve => exact pop3
  | imap4 => exact Talk.run_response_next true imap4OkToken arrives whole fits enough

theorem strcmp_same (platform : Platform) (text : CString) : platform.strcmp text text = 0 :=
  if_pos rfl

theorem strcmp_other (platform : Platform) {left right : CString} (other : left ≠ right) :
    platform.strcmp left right ≠ 0 := by
  rw [Platform.strcmp, if_neg other]
  dsimp only
  split
  · decide
  · assumption

/-- Once the greeting is accepted, `pop3_out_setup` does not return 0 again. -/
theorem pop3OutStls_status : pop3OutStls.Obeys Contract.any fun status => status ≠ 0 := by
  have some_ (found : Bool) : pop3OutStatus found ≠ 0 := by
    cases found with
    | false => decide
    | true => decide
  apply obeys_bind_any
  intro _
  refine obeys_ite (fun _ => some_ false) fun _ => obeys_bind_any fun _ => ?_
  refine obeys_ite (fun _ => some_ false) fun _ => obeys_bind_any fun read => ?_
  refine obeys_ite (fun _ => some_ read.1) fun _ => ?_
  refine obeys_ite (fun _ => some_ false) fun _ => obeys_bind_any fun _ => ?_
  exact obeys_ite (fun _ => some_ true) fun _ => obeys_bind_any fun _ => some_ true

/-- The STARTTLS exchange of IMAP begins with a message. -/
theorem imap4OutStarttls_speaks (opt : Options) {tag : Token} (ours : OurTag tag) (compared : Int)
    (fuel : Nat) (t : Talk) :
    ((imap4OutStarttls opt tag compared).run Talk.step fuel t).Meets
      (fun _ t' => t'.log.past ≠ []) fun _ => True := by
  have said : ((send (capabilityCommand tag)).with .server).run Talk.step fuel t =
      t.spoken (.message (capabilityCommand tag)) := by
    rw [Talk.run_server]
    change ((if (t.say _).1 = true then pure 0 else pure (-1) : Dialogue Int).run
      Talk.serverStep fuel (t.say _).2) = _
    rw [Talk.spoken]
    split
    · rfl
    · rfl
  rw [imap4OutStarttls, run_bind]
  have asked : ((imap4OutGetCapability true imap4OkToken tag
      (some ⟨List.replicate maxLineLength 0, maxLineLength⟩) (lit "STARTTLS")).run Talk.step fuel t).Meets
        (fun _ t' => t'.log.past ≠ []) fun _ => True := by
    rw [imap4OutGetCapability, imap4WriteStr_capability ours, run_bind, said, Talk.spoken,
      Outcome.next_done]
    exact Talk.run_past _ (List.cons_ne_nil _ _)
  exact asked.next fun r t' past => Talk.run_past _ past

/-- What `out_setup` does once a greeting is accepted. -/
structure Compared (setup : Exchange (Int × Token)) (text : CString) (tag : Token) (q : Queue) (fuel : Nat)
    (t heard : Talk) : Prop where
  /-- Without words there is no string. -/
  empty : queueToString q = none → ∀ r t', setup.run Talk.step fuel t ≠ .done r t'
  /-- The same string is a loop. -/
  same : queueToString q = some text → setup.run Talk.step fuel t = .done (0, tag) heard
  /-- Another is none. -/
  other : ∀ read, queueToString q = some read → read ≠ text →
    ∀ r t', setup.run Talk.step fuel t = .done r t' → r.1 = 0 → t'.log.past ≠ []

/-- What follows the greeting that was accepted. -/
theorem pop3OutSetup_accepted {opt : Options} {platform : Platform} {text : CString}
    (named : greetingStr platform (lit "POP3 perditon ready on") = some text) {tag : Token} {fuel : Nat}
    {t heard : Talk} {q : Queue}
    (answered : (pop3OutResponse pop3OkToken none).run Talk.step fuel t = .done ⟨1, q, none⟩ heard) :
    (Protocol.outSetup .pop3 opt platform tag).run Talk.step fuel t =
      ((match queueToString q with
        | none => Exchange.fault .queueToString
        | some readString =>
          if platform.strcmp readString text = 0 then return 0
          else if !opt.sslMode.has sslModeTlsOutgoing then return pop3OutStatus false
          else pop3OutStls : Exchange Int) >>= fun status => pure (status, tag)).run Talk.step fuel
          heard := by
  change ((pop3OutSetup opt platform) >>= fun status => pure (status, tag)).run Talk.step fuel t = _
  rw [run_bind, pop3OutSetup, run_bind, answered, Outcome.next_done, named, run_bind]
  rfl

theorem pop3OutSetup_compared {opt : Options} {platform : Platform} {text : CString}
    (named : greetingStr platform (lit "POP3 perditon ready on") = some text) {tag : Token} {fuel : Nat}
    {t heard : Talk} {q : Queue}
    (answered : (pop3OutResponse pop3OkToken none).run Talk.step fuel t = .done ⟨1, q, none⟩ heard) :
    Compared (Protocol.outSetup .pop3 opt platform tag) text tag q fuel t heard := by
  have run := @pop3OutSetup_accepted opt platform text named tag fuel t heard q answered
  constructor
  · intro none_ r t' done
    rw [run, none_] at done
    cases done
  · intro same
    rw [run, same]
    dsimp only
    rw [if_pos (strcmp_same platform text)]
    rfl
  · intro read given other r t' done zero
    rw [run, given] at done
    dsimp only at done
    rw [if_neg (strcmp_other platform other)] at done
    have status : (if !opt.sslMode.has sslModeTlsOutgoing then return pop3OutStatus false
        else pop3OutStls : Exchange Int).Obeys Contract.any fun status => status ≠ 0 :=
      obeys_ite (fun _ => show pop3OutStatus false ≠ 0 by decide) fun _ => pop3OutStls_status
    have status : ((if !opt.sslMode.has sslModeTlsOutgoing then return pop3OutStatus false
        else pop3OutStls : Exchange Int) >>= fun status => pure (status, tag)).Obeys Contract.any
        fun r => r.1 ≠ 0 :=
      obeys_bind.mpr (obeys_mono status fun _ given => given)
    exact absurd zero (run_returns status done)

/-- What follows the greeting that was accepted. -/
theorem imap4OutSetup_accepted {opt : Options} {platform : Platform} {text : CString}
    (named : imap4GreetingStr opt platform = some (some text)) {tag : Token} {fuel : Nat}
    {t heard : Talk} {q : Queue}
    (answered : (imap4OutResponse true none imap4OkToken none).run Talk.step fuel t =
      .done ⟨1, q, none⟩ heard) :
    (imap4OutSetup opt platform tag).run Talk.step fuel t =
      (match queueToString q with
        | none => Exchange.fault .queueToString
        | some readString =>
          if platform.strcmp readString text = 0 then return (0, tag)
          else if !opt.sslMode.has sslModeTlsOutgoing then return (protocolSOk, tag)
          else imap4OutStarttls opt tag (platform.strcmp readString text) :
            Exchange (Int × Token)).run Talk.step fuel heard := by
  rw [imap4OutSetup, run_bind, answered, Outcome.next_done, named]
  rfl

theorem imap4OutSetup_compared {opt : Options} {platform : Platform} {text : CString}
    (named : imap4GreetingStr opt platform = some (some text)) {tag : Token} (ours : OurTag tag)
    {fuel : Nat} {t heard : Talk} {q : Queue}
    (answered : (imap4OutResponse true none imap4OkToken none).run Talk.step fuel t =
      .done ⟨1, q, none⟩ heard) :
    Compared (imap4OutSetup opt platform tag) text tag q fuel t heard := by
  have run := @imap4OutSetup_accepted opt platform text named tag fuel t heard q answered
  constructor
  · intro none_ r t' done
    rw [run, none_] at done
    cases done
  · intro same
    rw [run, same]
    dsimp only
    rw [if_pos (strcmp_same platform text)]
    rfl
  · intro read given other r t' done zero
    rw [run, given] at done
    dsimp only at done
    rw [if_neg (strcmp_other platform other)] at done
    split at done
    · cases done
      exact absurd (show (protocolSOk : Int) = 0 from zero) (by decide)
    · have spoke := imap4OutStarttls_speaks opt ours (platform.strcmp read text) fuel heard
      rw [done] at spoke
      exact spoke

/-! ## Loops -/

section

variable {protocol : Protocol} (compares : protocol ≠ .managesieve) {opt : Options} {platform : Platform}
  {text : CString}

include compares

theorem outSetup_compared (named : protocol.greetingText opt platform = some text) {tag : Token}
    (ours : OurTag tag) {fuel : Nat} {t heard : Talk} {q : Queue}
    (answered : protocol.outGreeting.run Talk.step fuel t = .done ⟨1, q, none⟩ heard) :
    Compared (protocol.outSetup opt platform tag) text tag q fuel t heard := by
  cases protocol with
  | managesieve => exact absurd rfl compares
  | pop3 => exact pop3OutSetup_compared named answered
  | imap4 =>
    have given : imap4GreetingStr opt platform = some (some text) := by
      cases found : imap4GreetingStr opt platform with
      | none => cases (congrArg Option.join found).symm.trans named
      | some inner => exact congrArg some ((congrArg Option.join found).symm.trans named)
    exact imap4OutSetup_compared given ours answered

end

/-- `out_setup` reports a loop: it accepts the greeting, but returns 0 before it says anything. -/
structure LoopReported (protocol : Protocol) (opt : Options) (platform : Platform) (tag : Token)
    (fuel : Nat) (w : World) : Prop where
  /-- The response is the desired one. -/
  accepted : protocol.outGreeting.Returns fuel w fun r _ => r.status = 1
  /-- It is refused all the same. -/
  refused : (protocol.outSetup opt platform tag).Returns fuel w fun r t => r.1 = 0 ∧ t.log.past = []

/-- The line is an accepted response, in this spelling, and the text with this behind it. -/
structure GreetsWith (protocol : Protocol) (text : CString) (line word tail : List Byte) : Prop where
  /-- Carriage returns do not count. -/
  shape : withoutCr line = protocol.okWords.1 ++ word ++ space :: (text.content ++ tail)
  /-- The response is accepted in either case. -/
  letters : word.map toLower = protocol.okWords.2.map toLower

section

variable {protocol : Protocol} (compares : protocol ≠ .managesieve) {opt : Options} {platform : Platform}
  {text : CString} (sent : protocol.greeting opt platform = send (protocol.greetingLine text))
  {tag : Token} (ours : OurTag tag) {w : World} {t : Talk} (talks : w.Talks w.trace.length t)
  {line rest : List Byte} (arrives : t.stream = line ++ lf :: rest) (whole : lf ∉ line) {fuel : Nat}
  (enough : t.stream.length < fuel)

include compares sent ours talks arrives whole enough

/-- A loop is reported where the greeting is the text, or the text and a NUL. -/
theorem loopReported_iff :
    LoopReported protocol opt platform tag fuel w ↔
      ∃ word tail, GreetsWith protocol text line word tail ∧ (tail = [] ∨ tail.head? = some 0) := by
  have ⟨named, short⟩ := Protocol.greeting_send compares sent
  have greeting := protocol.run_outGreeting arrives whole enough
  have sends : protocol.outGreeting.Obeys (sending fun _ => True) fun _ => True := by
    cases protocol with
    | pop3 => exact pop3OutResponse_sending _ _
    | managesieve => exact pop3OutResponse_sending _ _
    | imap4 => exact imap4OutResponse_sending _ _ _ _
  have setup : (protocol.outSetup opt platform tag).Returns fuel w
      (fun r t => r.1 = 0 ∧ t.log.past = []) ↔ _ :=
    Exchange.returns_iff (Protocol.outSetup_sending protocol opt platform ours) talks
  have compared {word more : List Byte}
      (begins : withoutCr line = protocol.okWords.1 ++ word ++ space :: more)
      (spelled : Response.Spelled protocol.okWords.2 word) :=
    outSetup_compared compares named ours
      (greeting.trans (congrArg (Outcome.done · _) (Protocol.greetingAnswer_of begins spelled)))
  constructor
  · intro ⟨accepted, refused⟩
    have ⟨response, t', run, one⟩ := (Exchange.returns_iff sends talks).mp accepted
    have ⟨r, t₂, done, zero, quiet⟩ := setup.mp refused
    rw [greeting] at run
    cases run
    rcases Protocol.of_greetingAnswer one with none_ | ⟨word, more, begins, spelled⟩
    · have stuck : protocol.greetingAnswer line = ⟨1, [], none⟩ := by
        have capture := protocol.greetingAnswer_capture line
        generalize protocol.greetingAnswer line = response at one none_ capture ⊢
        cases response
        cases one
        cases none_
        cases capture
        rfl
      exact absurd done ((outSetup_compared compares named ours
        (greeting.trans (congrArg (Outcome.done · _) stuck))).empty rfl r t₂)
    · have clean : cr ∉ more := fun member =>
        not_mem_withoutCr line (begins ▸ List.mem_append_right _ (List.mem_cons_of_mem _ member))
      have string := queueToString_lineTokens (words_ne_nil protocol.quotes more)
      have same : cstr (List.intercalate [space] (words protocol.quotes more)) = text := by
        by_contra other
        exact (compared begins spelled).other _ string other r t₂ done zero quiet
      have ⟨tail, split_, ended⟩ := (words_string protocol.quotes clean short).mp same
      exact ⟨word, tail, ⟨split_ ▸ begins, spelled.letters⟩, ended⟩
  · intro ⟨word, tail, greets, ended⟩
    have spelled : Response.Spelled protocol.okWords.2 word := ⟨greets.letters, protocol.okWords_known⟩
    have clean : cr ∉ text.content ++ tail := fun member =>
      not_mem_withoutCr line (greets.shape ▸ List.mem_append_right _ (List.mem_cons_of_mem _ member))
    have same := (words_string protocol.quotes clean short).mpr ⟨tail, rfl, ended⟩
    have string := queueToString_lineTokens (words_ne_nil protocol.quotes (text.content ++ tail))
    rw [same] at string
    constructor
    · exact (Exchange.returns_iff sends talks).mpr
        ⟨_, _, greeting, by rw [Protocol.greetingAnswer_of greets.shape spelled]⟩
    · refine setup.mpr ⟨_, _, (compared greets.shape spelled).same string, rfl, ?_⟩
      change t.log.past = []
      rw [talks.log_start]
      rfl

end

theorem Protocol.okWords_plain (protocol : Protocol) :
    ∀ b ∈ protocol.okWords.1 ++ protocol.okWords.2, b ≠ lf ∧ b ≠ cr := by
  cases protocol with
  | pop3 => decide +kernel
  | imap4 => decide +kernel
  | managesieve => decide +kernel

/-- Where the text has no carriage return, there is none before the end of the line. -/
theorem withoutCr_greeting (protocol : Protocol) {text : CString} (clean : cr ∉ text.content) :
    withoutCr (protocol.okWords.1 ++ protocol.okWords.2 ++ space :: text.content) =
      protocol.okWords.1 ++ protocol.okWords.2 ++ space :: text.content := by
  apply List.filter_eq_self.mpr
  intro b member
  apply decide_eq_true
  rcases List.mem_append.mp member with member | member
  · exact (protocol.okWords_plain b member).2
  · rcases List.mem_cons.mp member with same | member
    · rw [same]
      decide
    · exact fun (return_ : b = cr) => clean (return_ ▸ member)

/-- Where the stream begins with the greeting of the program, its first line greets with the text. -/
theorem greetsWith_own {protocol : Protocol} {text : CString} (clean : cr ∉ text.content)
    (single : lf ∉ text.content) {stream line rest : List Byte} (arrives : stream = line ++ lf :: rest)
    (whole : lf ∉ line) (own : protocol.greetingLine text <+: stream) :
    GreetsWith protocol text line protocol.okWords.2 [] := by
  have ⟨more, begins⟩ := own
  have front : stream =
      (protocol.okWords.1 ++ protocol.okWords.2 ++ space :: text.content ++ [cr]) ++ lf :: more := by
    rw [← begins, Protocol.greetingLine, crlf]
    simp
  have first : lf ∉ protocol.okWords.1 ++ protocol.okWords.2 ++ space :: text.content ++ [cr] := by
    intro member
    rcases List.mem_append.mp member with member | member
    · rcases List.mem_append.mp member with member | member
      · exact (protocol.okWords_plain lf member).1 rfl
      · rcases List.mem_cons.mp member with same | member
        · exact absurd same (by decide)
        · exact single member
    · exact absurd member (by decide)
  have same := (first_unique whole first (arrives.symm.trans front)).1
  constructor
  · rw [same, List.append_nil, withoutCr, List.filter_append, ← withoutCr,
      withoutCr_greeting protocol clean]
    exact List.append_nil _
  · rfl

/-- The text stands in a line that greets with it. -/
theorem GreetsWith.mem {protocol : Protocol} {text : CString} {line word tail : List Byte}
    (greets : GreetsWith protocol text line word tail) {b : Byte} (member : b ∈ text.content) :
    b ∈ withoutCr line := by
  rw [greets.shape]
  exact List.mem_append_right _ (List.mem_cons_of_mem _ (List.mem_append_left _ member))

/-- A line that greets with the text is the line of the program where nothing else is in it. -/
theorem GreetsWith.same_iff {protocol : Protocol} {text : CString} {line word tail : List Byte}
    (greets : GreetsWith protocol text line word tail) :
    withoutCr (line ++ [lf]) = withoutCr (protocol.greetingLine text) ↔
      word = protocol.okWords.2 ∧ tail = [] := by
  have clean : cr ∉ text.content := fun member => not_mem_withoutCr line (greets.mem member)
  have left : withoutCr (line ++ [lf]) =
      protocol.okWords.1 ++ word ++ space :: (text.content ++ tail) ++ [lf] := by
    rw [withoutCr, List.filter_append, ← withoutCr, greets.shape]
    rfl
  have right : withoutCr (protocol.greetingLine text) =
      protocol.okWords.1 ++ protocol.okWords.2 ++ space :: text.content ++ [lf] := by
    rw [Protocol.greetingLine, withoutCr, List.filter_append, ← withoutCr,
      withoutCr_greeting protocol clean]
    rfl
  rw [left, right]
  constructor
  · intro same
    have length : (protocol.okWords.1 ++ word).length =
        (protocol.okWords.1 ++ protocol.okWords.2).length := by
      have letters := congrArg List.length greets.letters
      rw [List.length_map, List.length_map] at letters
      rw [List.length_append, List.length_append, letters]
    obtain ⟨words_, texts⟩ := List.append_inj (List.append_cancel_right same) length
    exact ⟨List.append_cancel_left words_,
      List.append_right_eq_self.mp (List.cons.inj texts).2⟩
  · rintro ⟨spelled, none_⟩
    rw [spelled, none_, List.append_nil]

/-- The greeting of the program is reported as a loop, and one that differs from it in a byte other than a
carriage return is not. -/
structure LoopsTold (protocol : Protocol) (opt : Options) (platform : Platform) (text : CString)
    (tag : Token) (fuel : Nat) (w : World) (stream line : List Byte) : Prop where
  /-- The line that the program writes. -/
  own : protocol.greetingLine text <+: stream → LoopReported protocol opt platform tag fuel w
  /-- Another line. -/
  other : withoutCr (line ++ [lf]) ≠ withoutCr (protocol.greetingLine text) →
    ¬ LoopReported protocol opt platform tag fuel w

section

variable {protocol : Protocol} (compares : protocol ≠ .managesieve) {opt : Options} {platform : Platform}
  {text : CString} (sent : protocol.greeting opt platform = send (protocol.greetingLine text))
  {tag : Token} (ours : OurTag tag) {w : World} {t : Talk} (talks : w.Talks w.trace.length t)
  {line rest : List Byte} (arrives : t.stream = line ++ lf :: rest) (whole : lf ∉ line) {fuel : Nat}
  (enough : t.stream.length < fuel)

include compares sent ours talks arrives whole enough

/-- `out_setup` tells loops exactly where the text of the program has neither CR nor LF, if the real
server sends it, and the real server does not send it with the response in other letters, or with a NUL
and something more. -/
theorem outSetup_loops_iff :
    LoopsTold protocol opt platform text tag fuel w t.stream line ↔
      (protocol.greetingLine text <+: t.stream → cr ∉ text.content ∧ lf ∉ text.content) ∧
        ∀ word tail, GreetsWith protocol text line word tail →
          (tail = [] → word = protocol.okWords.2) ∧ tail.head? ≠ some 0 := by
  have reported := loopReported_iff compares sent ours talks arrives whole enough
  constructor
  · intro told
    constructor
    · intro own
      have ⟨word, tail, greets, _⟩ := reported.mp (told.own own)
      exact ⟨fun member => not_mem_withoutCr line (greets.mem member),
        fun member => whole (List.mem_filter.mp (greets.mem member)).1⟩
    · intro word tail greets
      have same (ended : tail = [] ∨ tail.head? = some 0) : word = protocol.okWords.2 ∧ tail = [] := by
        rw [← greets.same_iff]
        by_contra differs
        exact told.other differs (reported.mpr ⟨word, tail, greets, ended⟩)
      constructor
      · exact fun none_ => (same (.inl none_)).1
      · intro nul
        rw [(same (.inr nul)).2] at nul
        cases nul
  · intro ⟨clean, spelled⟩
    constructor
    · intro own
      have ⟨noCr, single⟩ := clean own
      exact reported.mpr ⟨_, [], greetsWith_own noCr single arrives whole own, .inl rfl⟩
    · intro differs loop
      have ⟨word, tail, greets, ended⟩ := reported.mp loop
      have ⟨same, noNul⟩ := spelled word tail greets
      rcases ended with none_ | nul
      · exact differs (greets.same_iff.mpr ⟨same none_, none_⟩)
      · exact noNul nul

end

/-- The greeting of the sample platform. -/
def sampleGreeting : CString := lit "POP3 perditon ready on mail 00000000"

theorem greeting_sample : Protocol.greeting .pop3 Options.sample Platform.sample =
    send (Protocol.greetingLine .pop3 sampleGreeting) := by
  have named : greetingStr Platform.sample (lit "POP3 perditon ready on") = some sampleGreeting := by
    decide +kernel
  rw [Protocol.greeting, named]
  dsimp only
  rw [pop3WriteStr_argument (by decide) (by decide +kernel), content_lit (by decide)]
  rfl

/-- The greeting of the program with a carriage return more. -/
def ownLine : List Byte := bytes "+OK POP3 perditon\r ready on mail 00000000\r"

/-- It is reported, and others are not. -/
theorem outSetup_loops_own :
    LoopsTold .pop3 Options.sample Platform.sample sampleGreeting imap4TagCreate 64
      (World.connected [ownLine ++ [lf]]) (Talk.reading [ownLine ++ [lf]]).stream ownLine := by
  apply (outSetup_loops_iff (by decide) greeting_sample .create (World.connected_talks _)
    (show (Talk.reading [ownLine ++ [lf]]).stream = ownLine ++ lf :: [] by decide +kernel)
    (by decide +kernel) (by decide +kernel)).mpr
  constructor
  · exact fun _ => ⟨by decide +kernel, by decide +kernel⟩
  · intro word tail greets
    have length := congrArg List.length greets.letters
    rw [List.length_map, List.length_map] at length
    have whole : bytes "+OK" ++ space :: sampleGreeting.content =
        word ++ space :: (sampleGreeting.content ++ tail) :=
      Eq.trans (by decide +kernel) greets.shape
    have ⟨same, others⟩ := List.append_inj whole length.symm
    have none_ := List.append_right_eq_self.mp (List.cons.inj others).2.symm
    exact ⟨fun _ => same.symm, by rw [none_]; decide⟩

/-- The greeting of the program with a NUL and something more. -/
def nulLine : List Byte := bytes "+OK POP3 perditon ready on mail 00000000" ++ 0 :: bytes "mail2\r"

/-- It is reported as a loop. -/
theorem outSetup_loops_nul :
    LoopReported .pop3 Options.sample Platform.sample imap4TagCreate 64
        (World.connected [nulLine ++ [lf]]) ∧
      ¬ LoopsTold .pop3 Options.sample Platform.sample sampleGreeting imap4TagCreate 64
        (World.connected [nulLine ++ [lf]]) (Talk.reading [nulLine ++ [lf]]).stream nulLine := by
  have reported : LoopReported .pop3 Options.sample Platform.sample imap4TagCreate 64
      (World.connected [nulLine ++ [lf]]) :=
    (loopReported_iff (by decide) greeting_sample .create (World.connected_talks _)
      (show (Talk.reading [nulLine ++ [lf]]).stream = nulLine ++ lf :: [] by decide +kernel)
      (by decide +kernel) (by decide +kernel)).mpr
        ⟨bytes "+OK", 0 :: bytes "mail2", ⟨by decide +kernel, rfl⟩, .inr rfl⟩
  exact ⟨reported, fun told => told.other (by decide +kernel) reported⟩

end Perdition
