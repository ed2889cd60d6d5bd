import Perdition.Verif.Framing
import Perdition.Verif.Handshake
import Perdition.Verif.Listing
import Perdition.Verif.Pop3Chain

/-!
# IMAP behind IMAP

One instance of the program logs in to another by `LOGIN` with two literals. The other announces its
capabilities, asks for each literal, and has the user name and the password byte for byte, line ends
and quotes among them.
-/
namespace Perdition

open Lib Program

/-! ## Lines -/

/-- A line of IMAP: its tag, its second word, and a text. -/
def imap4Line (tag : List Byte) (word : String) (text : List Byte) : List Byte :=
  tag ++ space :: bytes word ++ space :: (text ++ crlf)

/-- What comes before the line feed. -/
def imap4Front (tag : List Byte) (word : String) (text : List Byte) : List Byte :=
  tag ++ space :: bytes word ++ space :: (text ++ [cr])

theorem imap4Line_front (tag : List Byte) (word : String) (text : List Byte) :
    imap4Line tag word text = imap4Front tag word text ++ [lf] := by
  simp [imap4Line, imap4Front, crlf]

theorem imap4Line_append (tag : List Byte) (word : String) (text rest : List Byte) :
    imap4Line tag word text ++ rest = imap4Front tag word text ++ lf :: rest := by
  rw [imap4Line_front, List.append_assoc, List.singleton_append]

/-- A word without carriage returns, spaces, quotes and line feeds. -/
structure SolidWord (word : List Byte) : Prop where
  /-- Its bytes. -/
  plain : ∀ b ∈ word, b ≠ cr ∧ b ≠ space ∧ b ≠ dquote
  /-- It is in one line. -/
  whole : lf ∉ word
  /-- It is short. -/
  short : word.length < maxLineLength

instance (word : List Byte) : Decidable (SolidWord word) :=
  decidable_of_iff (word.all (fun b => b ≠ cr ∧ b ≠ space ∧ b ≠ dquote) ∧ lf ∉ word ∧
    word.length < maxLineLength)
    ⟨fun all => ⟨by simpa using all.1, all.2.1, all.2.2⟩,
      fun solid => ⟨by simpa using solid.plain, solid.whole, solid.short⟩⟩

/-- A solid word is the first of its line. -/
theorem SolidWord.words {word : List Byte} (solid : SolidWord word) (quotes : Bool)
    (rest : List Byte) : words quotes (word ++ space :: rest) = word :: words quotes rest :=
  wordsFrom_space quotes solid.plain rest [] (by
    rw [List.length_nil, Nat.zero_add]
    exact solid.short)

/-- It is the last word of its line. -/
theorem SolidWord.words_end {word : List Byte} (solid : SolidWord word) (quotes : Bool) :
    Perdition.words quotes (word ++ [cr]) = [word] :=
  (words_last quotes (fun return_ => (solid.plain cr return_).1 rfl) solid.short).1 (by
    rw [Sieve.openAfter_plain quotes false fun b member => (solid.plain b member).2]
    rfl)

theorem OurTag.solid {tag : Token} (ours : OurTag tag) : SolidWord tag.buf := by
  have apart : ∀ b : Byte, alnum b = true → (b ≠ cr ∧ b ≠ space ∧ b ≠ dquote) ∧ b ≠ lf :=
    byte_of_nat (by decide +kernel)
  refine ⟨fun b member => (apart b (ours.shape.2 b member)).1, fun member => ?_, ?_⟩
  · exact (apart lf (ours.shape.2 lf member)).2 rfl
  · rw [ours.shape.1]
    decide

/-- The tokens of a line of IMAP. -/
theorem words_imap4Front {tag : List Byte} {word : String} (solid : SolidWord tag)
    (solid' : SolidWord (bytes word)) (text : List Byte) :
    lineTokens (words (tokenImap4.has tokenImap4) (imap4Front tag word text)) =
      ⟨tag, tokenNone⟩ :: ⟨bytes word, tokenNone⟩ :: lineTokens (words true (text ++ [cr])) := by
  rw [show tokenImap4.has tokenImap4 = true by decide, imap4Front, List.append_assoc,
    List.cons_append, solid.words, solid'.words, lineTokens_cons (List.cons_ne_nil _ _),
    lineTokens_cons (words_ne_nil true _)]

theorem imap4Front_whole {tag text : List Byte} {word : String} (solid : SolidWord tag)
    (solid' : SolidWord (bytes word)) (whole : lf ∉ text) : lf ∉ imap4Front tag word text := by
  simp only [imap4Front, List.mem_append, List.mem_cons, not_or]
  exact ⟨⟨solid.whole, by decide, solid'.whole⟩, by decide, whole, by decide⟩

section Lines

variable {fuel : Nat} {history : List (Byte ⊕ Byte)} {rest : List Byte} {tag text : List Byte}
  {word : String}

/-- A line of IMAP is read. -/
theorem comes_imap4Line (solid : SolidWord tag) (solid' : SolidWord (bytes word)) (whole : lf ∉ text)
    (enough : (imap4Line tag word text ++ rest).length < fuel) :
    ((readLineInto none tokenImap4 0).with .server).Comes fuel history
      (imap4Line tag word text ++ rest)
      (some (⟨tag, tokenNone⟩ :: ⟨bytes word, tokenNone⟩ ::
        lineTokens (words true (text ++ [cr])), none))
      (history ++ heard (imap4Line tag word text)) rest := by
  rw [imap4Line_append] at enough ⊢
  have line := @comes_readLine fuel history rest tokenImap4 lineFlag_imap4 none
    (imap4Front tag word text) (imap4Front_whole solid solid' whole) (fun c none_ => by cases none_)
    enough
  rwa [words_imap4Front solid solid', ← imap4Line_front] at line

/-- A line of the two words of a command is read. -/
theorem comes_imap4Command (solid : SolidWord tag) (solid' : SolidWord (bytes word))
    (enough : (tag ++ space :: bytes word ++ crlf ++ rest).length < fuel) :
    ((readLine none tokenImap4 0).with .server).Comes fuel history
      (tag ++ space :: bytes word ++ crlf ++ rest)
      (some ([⟨tag, tokenNone⟩, ⟨bytes word, tokenEol⟩], []))
      (history ++ heard (tag ++ space :: bytes word ++ crlf)) rest := by
  have shape : tag ++ space :: bytes word ++ crlf = tag ++ space :: (bytes word ++ [cr]) ++ [lf] := by
    simp [crlf]
  have tokens : lineTokens (words (tokenImap4.has tokenImap4) (tag ++ space :: (bytes word ++ [cr]))) =
      [⟨tag, tokenNone⟩, ⟨bytes word, tokenEol⟩] := by
    rw [show tokenImap4.has tokenImap4 = true by decide, solid.words, solid'.words_end]
    rfl
  rw [shape, List.append_assoc, List.singleton_append] at enough
  rw [shape, List.append_assoc _ [lf], List.singleton_append]
  have line := @comes_line fuel history rest tokenImap4 lineFlag_imap4
    (tag ++ space :: (bytes word ++ [cr])) (by
      simp only [List.mem_append, List.mem_cons, not_or]
      exact ⟨solid.whole, by decide, solid'.whole, by decide⟩) enough
  rwa [tokens] at line

end Lines

/-! ## Messages -/

/-- Literal bytes are read. -/
theorem comes_literal {fuel : Nat} {history : List (Byte ⊕ Byte)} {content rest : List Byte}
    (some_ : content ≠ []) (fits : content.length ≤ maxLineLength)
    (enough : (content ++ rest).length < fuel) :
    ((tokenRead none tokenImap4Literal content.length).with .server).Comes fuel history
      (content ++ rest) (some (⟨content, tokenNone⟩, [])) (history ++ heard content) rest := by
  intro t passed
  have positive : 1 ≤ content.length := List.length_pos_iff.mpr some_
  have taken : literalTaken content.length = content.length := Nat.min_eq_left fits
  have scanned : scanToken none tokenImap4Literal content.length .start t.stream =
      some ((⟨content, tokenNone⟩, []), rest) := by
    rw [scanToken_literalStart positive, taken, passed.stream, if_neg (by simp), List.take_left,
      List.drop_left]
  have quiet := passed.live
  rw [Log.turns, List.any_cons, Bool.or_eq_false_iff] at quiet
  refine ⟨t.advance rest, ?_, ?_⟩
  · rw [Talk.run_tokenRead none tokenImap4Literal content.length (passed.stream ▸ enough), scanned]
    rfl
  · rw [Talk.advance_append passed.stream]
    refine ⟨?_, rfl, ?_, passed.writes⟩
    · rw [turnsBytes_hear, quiet.2, passed.history]
      rfl
    · simpa [Log.hear, Log.turns] using quiet

/-- A word that the program writes. -/
structure WrittenWord (word : String) : Prop where
  /-- It has no NUL. -/
  noNul : 0 ∉ bytes word
  /-- It has no percent sign. -/
  plain : Plain (bytes word)
  /-- It is short. -/
  short : (bytes word).length ≤ 16

section Messages

variable {fuel : Nat} {history : List (Byte ⊕ Byte)} {rest : List Byte} {tag : Token}
  {word : String} {str : CString}

/-- A message with a text is sent as a line. -/
theorem comes_imap4WriteStr (clean : 0 ∉ tag.buf) (plain : Plain tag.buf) (short : tag.len ≤ 6)
    (written : WrittenWord word) (fits : str.length + 64 ≤ maxText) :
    ((imap4WriteStr nullFlag (some tag) (some (lit word)) (some str)).with .server).Comes fuel history
      rest 0 (history ++ said (imap4Line tag.buf word str.content)) rest := by
  have content : (lit word).content = bytes word := content_lit written.noNul
  have size := written.short
  have limit : maxText < maxLineLength := by decide
  rw [imap4WriteStr_argument clean plain (content.symm ▸ written.plain)
    (by rw [CString.length, content]; omega) (by rw [CString.length, content]; omega), content]
  exact comes_send _

/-- A message without a tag is sent as an untagged line. -/
theorem comes_imap4Untagged (written : WrittenWord word) (fits : str.length + 64 ≤ maxText) :
    ((imap4WriteStr nullFlag none (some (lit word)) (some str)).with .server).Comes fuel history
      rest 0 (history ++ said (imap4Line imap4Untagged word str.content)) rest :=
  @comes_imap4WriteStr fuel history rest ⟨imap4Untagged, tokenNone⟩ word str (by decide) (by decide)
    (by decide) written fits

/-- The answer to a synchronising literal. -/
def imap4Ready : List Byte := imap4Line (bytes "+") "OK" (bytes "ready for additional input")

theorem comes_imap4Ready :
    ((imap4WriteStr nullFlag (some ⟨bytes "+", tokenNone⟩) (some (lit "OK"))
      (some (lit "ready for additional input"))).with .server).Comes fuel history rest 0
        (history ++ said imap4Ready) rest := by
  have content : (lit "ready for additional input").content = bytes "ready for additional input" :=
    content_lit (by decide)
  have sent := @comes_imap4WriteStr fuel history rest ⟨bytes "+", tokenNone⟩ "OK"
    (lit "ready for additional input") (by decide) (by decide) (by decide)
    ⟨by decide, by decide, by decide⟩ (by decide)
  rwa [content] at sent

end Messages

/-! ## The client's side -/

theorem OurTag.len {tag : Token} (ours : OurTag tag) : tag.len = 6 := ours.shape.1

theorem OurTag.token {tag : Token} (ours : OurTag tag) : (⟨tag.buf, tokenNone⟩ : Token) = tag := by
  rw [← ours.flag]

theorem OurTag.verified {tag : Token} (ours : OurTag tag) : imap4InVerifyTagStr tag = true := by
  have accepted : ∀ b : Byte, alnum b = true → imap4TagRefuses b = false :=
    byte_of_nat (by decide +kernel)
  rw [imap4InVerifyTagStr, Bool.and_eq_true, List.all_eq_true]
  refine ⟨by rw [ours.len]; decide, fun b member => ?_⟩
  rw [accepted b (ours.shape.2 b member)]
  rfl

/-- `vanessa_socket_str_is_digit` accepts digits. -/
def Platform.TakesDigits (platform : Platform) : Prop :=
  ∀ digits : List Byte, (∀ b ∈ digits, isDigit b = true) → platform.strIsDigit (cstr digits) = true

/-- The header of a literal announces it. -/
theorem imap4TokenIsLiteral_header {platform : Platform} (takes : platform.TakesDigits) {n : Nat}
    (small : n < ulongMax) :
    imap4TokenIsLiteral platform ⟨literalHeader false n, tokenEol⟩ = some (.literal true n) := by
  have shape : literalHeader false n = 123 :: (decimal n ++ [125]) := by
    rw [literalHeader, if_neg Bool.false_ne_true, List.append_nil]
  have digits (b : Byte) (member : b ∈ decimal n) := isDigit_decimal member
  have noNul : 0 ∉ literalHeader false n := by
    rw [shape, List.mem_cons, List.mem_append, not_or, not_or]
    exact ⟨by decide, fun nul => (digit_plain (digits 0 nul)).1 rfl, by decide⟩
  have string : tokenToString ⟨literalHeader false n, tokenEol⟩ (some dquote) =
      some (cstr (literalHeader false n)) := by
    rw [shape]
    simp [tokenToString, strnToStr, dquote, List.take_of_length_le]
  have last : (123 :: decimal n).getLast? ≠ some 43 := by
    have some_ := decimal_ne_nil n
    rw [List.getLast?_cons, List.getLast?_eq_some_getLast some_]
    intro sign
    have digit := digits _ (List.getLast_mem some_)
    rw [Option.getD_some, Option.some.injEq] at sign
    rw [sign] at digit
    exact absurd digit (by decide)
  have closed : (123 :: (decimal n ++ [125])).getLast? = some 125 := by
    rw [← List.cons_append, List.getLast?_concat]
  have inner : (123 :: (decimal n ++ [125])).dropLast = 123 :: decimal n := by
    rw [← List.cons_append, List.dropLast_concat]
  have text : imap4LiteralText platform (literalHeader false n) = .literal true n := by
    rw [shape, imap4LiteralText, if_neg (by rw [closed]; simp), inner]
    dsimp only
    rw [decide_eq_true last, if_pos last, List.drop_succ_cons, List.drop_zero, takes _ digits,
      (strtoul_decimal small).1]
    rw [if_neg (by decide), if_neg (by omega)]
  rw [imap4TokenIsLiteral, if_neg (by rw [Token.isEol_eol]; decide), string, Option.map_some,
    cstr_content noNul, text]

/-- `CAPABILITY` without arguments is answered. -/
theorem imap4InCommand_capability (opt : Options) (platform : Platform) (tlsFlags tlsState : Flag)
    (tag : Token) :
    imap4InCommand opt platform tlsFlags tlsState tag ⟨bytes "CAPABILITY", tokenEol⟩ [] =
      imap4InAnswer (imap4InCapabilityCmd opt tag tlsFlags tlsState) := by
  have null_ : Token.isNull ⟨bytes "CAPABILITY", tokenEol⟩ = false := by decide
  have noop : tokenCasecmpString ⟨bytes "CAPABILITY", tokenEol⟩ (lit "NOOP") = false := by decide
  have starttls : tokenCasecmpString ⟨bytes "CAPABILITY", tokenEol⟩ (lit "STARTTLS") = false := by
    decide
  have command : tokenCasecmpString ⟨bytes "CAPABILITY", tokenEol⟩ (lit "CAPABILITY") = true := by
    decide
  simp [imap4InCommand, imap4InCheckNoArg, null_, noop, starttls, command]

/-- `LOGIN` is that branch. -/
theorem imap4InCommand_login (opt : Options) (platform : Platform) (tlsFlags tlsState : Flag)
    (tag : Token) (q : Queue) :
    imap4InCommand opt platform tlsFlags tlsState tag ⟨bytes "LOGIN", tokenNone⟩ q =
      imap4InLogin platform tag q := by
  have null_ : Token.isNull ⟨bytes "LOGIN", tokenNone⟩ = false := by decide
  have other (command : CString) (apart : command.length ≠ 5) :
      tokenCasecmpString ⟨bytes "LOGIN", tokenNone⟩ command = false := by
    rw [tokenCasecmpString, Bool.and_eq_false_iff]
    exact .inl (decide_eq_false fun same => apart same.symm)
  have login : tokenCasecmpString ⟨bytes "LOGIN", tokenNone⟩ (lit "LOGIN") = true := by decide
  simp [imap4InCommand, null_, login, other (lit "NOOP") (by decide),
    other (lit "STARTTLS") (by decide), other (lit "CAPABILITY") (by decide),
    other (lit "AUTHENTICATE") (by decide), other (lit "LOGOUT") (by decide)]

/-- A user name or a password that a literal carries. -/
def LiteralText (text : CString) : Prop := text.content ≠ [] ∧ text.length + 64 ≤ maxText

section Server

variable {opt : Options} {platform : Platform} {tlsFlags tlsState : Flag} {fuel : Nat}
  {history : List (Byte ⊕ Byte)} {rest : List Byte} {user passwd capability : CString} {tag : Token}

/-- The line of a command without arguments. -/
def imap4Ask (tag : Token) (word : String) : List Byte := tag.buf ++ space :: bytes word ++ crlf

/-- The round that reads a command. -/
theorem comes_imap4InRound (ours : OurTag tag) {t : Token} {q : Queue} {line : List Byte}
    {r : Unit ⊕ InAuth} {history' : List (Byte ⊕ Byte)} {rest' : List Byte}
    (reads : ((readLine none tokenImap4 0).with .server).Comes fuel history (line ++ rest)
      (some (⟨tag.buf, tokenNone⟩ :: t :: q, [])) (history ++ heard line) rest)
    (commands : ((imap4InCommand opt platform tlsFlags tlsState tag t q).with .server).Comes fuel
      (history ++ heard line) rest r history' rest') :
    ((imap4InRound opt platform tlsFlags tlsState).with .server).Comes fuel history (line ++ rest) r
      history' rest' := by
  have first : tag.isEol = false := by rw [← ours.token, Token.isEol_none]
  rw [ours.token] at reads
  refine comes_bind reads ?_
  change ((if !imap4InVerifyTagStr tag then _ else if tag.isEol then _ else
    imap4InCommand opt platform tlsFlags tlsState tag t q : Round).with .server).Comes _ _ _ _ _ _
  rwa [ours.verified, if_neg (by decide), first, if_neg Bool.false_ne_true]

/-- The round that reads `CAPABILITY`. -/
theorem comes_capability (ours : OurTag tag)
    (built : imap4Capability opt tlsFlags tlsState = some capability)
    (fits : capability.length + 64 ≤ maxText)
    (enough : (imap4Ask tag "CAPABILITY" ++ rest).length < fuel) :
    ((imap4InRound opt platform tlsFlags tlsState).with .server).Comes fuel history
      (imap4Ask tag "CAPABILITY" ++ rest) (.inl ())
      (history ++ heard (imap4Ask tag "CAPABILITY") ++
        said (imap4Line imap4Untagged "CAPABILITY" capability.content) ++
        said (imap4Line tag.buf "OK" (bytes "CAPABILITY"))) rest := by
  have content : (lit "CAPABILITY").content = bytes "CAPABILITY" := content_lit (by decide)
  refine comes_imap4InRound ours (comes_imap4Command ours.solid (by decide +kernel) enough) ?_
  rw [imap4InCommand_capability, imap4InAnswer, imap4InCapabilityCmd, built]
  have untagged := @comes_imap4Untagged fuel (history ++ heard (imap4Ask tag "CAPABILITY")) rest
    "CAPABILITY" capability ⟨by decide, by decide, by decide⟩ fits
  have tagged := @comes_imap4WriteStr fuel (history ++ heard (imap4Ask tag "CAPABILITY") ++
    said (imap4Line imap4Untagged "CAPABILITY" capability.content)) rest tag "OK" (lit "CAPABILITY")
    ours.noNul ours.plain ours.len.le ⟨by decide, by decide, by decide⟩ (by decide)
  rw [content] at tagged
  exact comes_bind (comes_bind untagged (comes_bind tagged (comes_pure _))) (comes_pure _)

/-- A synchronising literal is asked for and read. -/
theorem comes_imap4TokenWrapper (takes : platform.TakesDigits) {text : CString}
    (carried : LiteralText text) (enough : (text.content ++ rest).length < fuel) :
    ((imap4TokenWrapper platform [] ⟨literalHeader false text.length, tokenEol⟩).with .server).Comes
      fuel history (text.content ++ rest) (some (.synchronising, ⟨text.content, tokenNone⟩))
      (history ++ said imap4Ready ++ heard text.content) rest := by
  have limit : maxText < ulongMax ∧ maxText < maxLineLength := by decide
  have fits := carried.2
  have some_ : text.length ≠ 0 := fun zero => carried.1 (List.length_eq_zero_iff.mp zero)
  rw [imap4TokenWrapper, imap4TokenIsLiteral_header takes (by omega)]
  dsimp only
  rw [if_neg (by decide), if_pos rfl, if_neg some_]
  have short : text.content.length ≤ maxLineLength := by
    change text.length ≤ maxLineLength
    omega
  exact comes_bind comes_imap4Ready (comes_bind (comes_literal carried.1 short enough) (comes_pure _))

/-- A text that was carried is the string of its token. -/
theorem imap4TokenToString_literal (text : CString) :
    imap4TokenToString ⟨text.content, tokenNone⟩ .synchronising = some text := by
  rw [imap4TokenToString, if_neg (by decide), noStrip, tokenToString_noStrip, cstr_self]

/-- The bytes of `LOGIN` with two literals. -/
def loginBytes (tag : Token) (user passwd : CString) : List Byte :=
  imap4Line tag.buf "LOGIN" (literalHeader false user.length) ++
    (user.content ++ (space :: literalHeader false passwd.length ++ crlf ++ passwd.content))

/-- The conversation of `LOGIN`, up to the end of the password. -/
def loginTalk (tag : Token) (user passwd : CString) : List (Byte ⊕ Byte) :=
  heard (imap4Line tag.buf "LOGIN" (literalHeader false user.length)) ++ said imap4Ready ++
    heard user.content ++ heard (space :: literalHeader false passwd.length ++ crlf) ++
    said imap4Ready ++ heard passwd.content

/-- The line of `LOGIN`. -/
theorem comes_loginLine (ours : OurTag tag) {n : Nat} (short : n ≤ maxLineLength)
    (enough : (imap4Line tag.buf "LOGIN" (literalHeader false n) ++ rest).length < fuel) :
    ((readLine none tokenImap4 0).with .server).Comes fuel history
      (imap4Line tag.buf "LOGIN" (literalHeader false n) ++ rest)
      (some ([⟨tag.buf, tokenNone⟩, ⟨bytes "LOGIN", tokenNone⟩, ⟨literalHeader false n, tokenEol⟩], []))
      (history ++ heard (imap4Line tag.buf "LOGIN" (literalHeader false n))) rest := by
  have login : SolidWord (bytes "LOGIN") := by decide +kernel
  rw [imap4Line_append] at enough ⊢
  have line := @comes_line fuel history rest tokenImap4 lineFlag_imap4
    (imap4Front tag.buf "LOGIN" (literalHeader false n))
    (imap4Front_whole ours.solid login fun member => (mem_header member).2.1 rfl) enough
  rwa [words_imap4Front ours.solid login, Sieve.tokens_header true false short,
    ← imap4Line_front] at line

/-- The rest of the line after the user name. -/
theorem comes_loginRest {n : Nat} (short : n ≤ maxLineLength)
    (enough : (space :: literalHeader false n ++ crlf ++ rest).length < fuel) :
    ((readLine none tokenImap4 0).with .server).Comes fuel history
      (space :: literalHeader false n ++ crlf ++ rest)
      (some ([⟨[], tokenNone⟩, ⟨literalHeader false n, tokenEol⟩], []))
      (history ++ heard (space :: literalHeader false n ++ crlf)) rest := by
  have shape : space :: literalHeader false n ++ crlf =
      space :: (literalHeader false n ++ [cr]) ++ [lf] := by
    simp [crlf]
  have empty_ : SolidWord [] := by decide +kernel
  have tokens : lineTokens (words (tokenImap4.has tokenImap4)
      (space :: (literalHeader false n ++ [cr]))) =
      [⟨[], tokenNone⟩, ⟨literalHeader false n, tokenEol⟩] := by
    have list := empty_.words true (literalHeader false n ++ [cr])
    rw [List.nil_append] at list
    rw [show tokenImap4.has tokenImap4 = true by decide, list, lineTokens_cons (words_ne_nil true _),
      Sieve.tokens_header true false short]
  rw [shape, List.append_assoc, List.singleton_append] at enough
  rw [shape, List.append_assoc _ [lf], List.singleton_append]
  have line := @comes_line fuel history rest tokenImap4 lineFlag_imap4
    (space :: (literalHeader false n ++ [cr])) (by
      simp only [List.mem_append, List.mem_cons, not_or]
      exact ⟨by decide, fun member => (mem_header member).2.1 rfl, by decide⟩) enough
  rwa [tokens] at line

/-- The round that reads `LOGIN` with its literals. -/
theorem comes_login (ours : OurTag tag) (takes : platform.TakesDigits) (named : LiteralText user)
    (proved : LiteralText passwd) (enough : (loginBytes tag user passwd ++ rest).length < fuel) :
    ((imap4InRound opt platform tlsFlags tlsState).with .server).Comes fuel history
      (loginBytes tag user passwd ++ rest)
      (.inr ⟨0, some (Auth.setPwd (some user) (some passwd)), some tag⟩)
      (history ++ loginTalk tag user passwd) rest := by
  have limit : maxText < maxLineLength := by decide
  have fits := named.2
  have fits' := proved.2
  have some_ (text : CString) (carried : LiteralText text) : Token.len ⟨text.content, tokenNone⟩ ≠ 0 :=
    fun zero => carried.1 (List.length_eq_zero_iff.mp zero)
  have shape : loginBytes tag user passwd ++ rest =
      imap4Line tag.buf "LOGIN" (literalHeader false user.length) ++
        (user.content ++ (space :: literalHeader false passwd.length ++ crlf ++
          (passwd.content ++ rest))) := by
    simp [loginBytes]
  rw [shape] at enough ⊢
  have shorter := enough
  rw [List.length_append] at shorter
  have last := shorter
  rw [List.length_append] at last
  refine comes_imap4InRound ours (comes_loginLine ours (by omega) enough) ?_
  rw [imap4InCommand_login, imap4InLogin, if_neg (by simp)]
  refine comes_bind (comes_imap4TokenWrapper takes named (by omega))
    (comes_bind (comes_loginRest (by omega) (by omega)) ?_)
  change ((imap4InLoginName platform tag [⟨literalHeader false passwd.length, tokenEol⟩]
    .synchronising ⟨user.content, tokenNone⟩).with .server).Comes _ _ _ _ _ _
  rw [imap4InLoginName, if_neg (some_ user named), imap4TokenToString_literal]
  refine comes_bind (comes_imap4TokenWrapper takes proved (by
    rw [List.length_append] at last
    omega)) ?_
  dsimp only
  rw [if_neg (some_ passwd proved), imap4TokenToString_literal]
  simp only [loginTalk, ← List.append_assoc]
  exact comes_pure _

end Server

/-! ## The other half -/

section Client

variable {opt : Options} {platform : Platform} {fuel : Nat} {history : List (Byte ⊕ Byte)}
  {rest : List Byte} {greeting user passwd capability : CString} {tag : Token}

/-- A line that begins with this word ends a response. -/
def EndsResponse (tag : Option Token) (first : List Byte) : Prop :=
  match tag with
  | none => first = imap4Untagged
  | some tag => first ≠ imap4Untagged ∧ tokenCmp tag ⟨first, tokenNone⟩ = true

/-- The tag of the program ends its response. -/
theorem OurTag.ends (ours : OurTag tag) : EndsResponse (some tag) tag.buf := by
  refine ⟨fun same => ?_, ?_⟩
  · have size := ours.shape.1
    rw [same] at size
    exact absurd size (by decide)
  · rw [ours.token]
    exact (tokenCmp_iff (.inl ours.noNul)).mpr ⟨.inl rfl, rfl⟩

/-- A response of one line. -/
theorem comes_imap4OutResponse {tag : Option Token} {first text : List Byte} {word : String}
    (ends : EndsResponse tag first) (solid : SolidWord first) (solid' : SolidWord (bytes word))
    (whole : lf ∉ text) (desired : Token)
    (enough : (imap4Line first word text ++ rest).length < fuel) :
    (imap4OutResponse true tag desired none).Comes fuel history (imap4Line first word text ++ rest)
      (imap4OutCheck desired (⟨bytes word, tokenNone⟩ :: lineTokens (words true (text ++ [cr]))) none)
      (history ++ heard (imap4Line first word text)) rest := by
  obtain ⟨rounds, rfl⟩ : ∃ rounds, fuel = rounds + 1 := ⟨fuel - 1, by omega⟩
  have line := @comes_imap4Line (rounds + 1) history rest first text word solid solid' whole enough
  refine comes_loop (comes_last (comes_bind line ?_))
  cases tag with
  | none =>
    have same : isUntagged ⟨first, tokenNone⟩ = true := decide_eq_true ends
    dsimp only
    rw [same, if_neg (by decide)]
    exact comes_pure _
  | some tag =>
    have other : isUntagged ⟨first, tokenNone⟩ = false := decide_eq_false ends.1
    dsimp only
    rw [other, if_neg Bool.false_ne_true, ends.2, if_neg (by decide)]
    exact comes_pure _

/-- The literal is asked for. -/
theorem comes_ready (enough : (imap4Ready ++ rest).length < fuel) :
    ∃ r, (imap4OutResponse true (some imap4ContToken) imap4OkToken none).Comes fuel history
      (imap4Ready ++ rest) r (history ++ heard imap4Ready) rest ∧ r.capture = none := by
  have line := @comes_imap4OutResponse fuel history rest (some imap4ContToken) (bytes "+")
    (bytes "ready for additional input") "OK" ⟨by decide, by decide⟩ (by decide +kernel)
    (by decide +kernel)
    (by decide) imap4OkToken enough
  refine ⟨_, line, ?_⟩
  rw [imap4OutCheck, if_pos (by decide)]

/-- A command without arguments is sent. -/
theorem comes_imap4Ask (ours : OurTag tag) {word : String} (written : WrittenWord word) :
    ((imap4WriteStr nullFlag (some tag) (some (lit word)) none).with .server).Comes fuel history rest
      0 (history ++ said (imap4Ask tag word)) rest := by
  have content : (lit word).content = bytes word := content_lit written.noNul
  have limit : 32 < maxLineLength := by decide
  have size := written.short
  rw [imap4WriteStr_command ours.noNul (by rw [ours.len, CString.length, content]; omega), content]
  exact comes_send _

/-- The real server's greeting is accepted where it is not the program's own. -/
theorem comes_imap4OutSetup {own : CString} (greets : LineText greeting)
    (fits : greeting.length + 1 < maxLineLength)
    (named : imap4GreetingStr opt platform = some (some own)) (other : greeting ≠ own)
    (plain : opt.sslMode.has sslModeTlsOutgoing = false)
    (enough : (imap4Line imap4Untagged "OK" greeting.content ++ rest).length < fuel) :
    (imap4OutSetup opt platform tag).Comes fuel history
      (imap4Line imap4Untagged "OK" greeting.content ++ rest) (1, tag)
      (history ++ heard (imap4Line imap4Untagged "OK" greeting.content)) rest := by
  have response := @comes_imap4OutResponse fuel history rest none imap4Untagged greeting.content "OK"
    rfl (by decide +kernel) (by decide +kernel) greets.noLf imap4OkToken enough
  rw [imap4OutCheck, if_pos (by decide)] at response
  have string : queueToString (lineTokens (words true (greeting.content ++ [cr]))) = some greeting := by
    rw [queueToString_lineTokens (words_ne_nil _ _), greets.words_join fits]
  refine comes_bind response ?_
  dsimp only
  rw [if_neg (by decide), string]
  dsimp only
  rw [named]
  dsimp only
  rw [if_neg (strcmp_other platform other), plain]
  exact comes_pure _

/-- The capabilities of the real server. -/
def capabilityReply (tag : Token) (capability : CString) : List Byte :=
  imap4Line imap4Untagged "CAPABILITY" capability.content ++
    imap4Line tag.buf "OK" (bytes "CAPABILITY")

/-- The capabilities of the real server are read, and this one is not among them. -/
theorem comes_imap4OutReadCapability (ours : OurTag tag) (line : LineText capability)
    {absent : CString} (missing : findCapability ⟨absent.content, tokenDontCare⟩
      (lineTokens (words true (capability.content ++ [cr]))) = false)
    (enough : (capabilityReply tag capability ++ rest).length < fuel) :
    (imap4OutReadCapability true imap4OkToken tag none absent).Comes fuel history
      (capabilityReply tag capability ++ rest) (0, imap4TagInc tag, none)
      (history ++ heard (capabilityReply tag capability)) rest := by
  have words_ : SolidWord (bytes "CAPABILITY") ∧ SolidWord imap4Untagged ∧ SolidWord (bytes "OK") := by
    decide +kernel
  have both : history ++ heard (capabilityReply tag capability) =
      history ++ heard (imap4Line imap4Untagged "CAPABILITY" capability.content) ++
        heard (imap4Line tag.buf "OK" (bytes "CAPABILITY")) := by
    simp [capabilityReply, heard]
  rw [both]
  rw [capabilityReply, List.append_assoc] at enough ⊢
  have less := enough
  rw [List.length_append] at less
  have untagged := @comes_imap4OutResponse fuel history
    (imap4Line tag.buf "OK" (bytes "CAPABILITY") ++ rest) none imap4Untagged capability.content
    "CAPABILITY" rfl words_.2.1 words_.1 line.noLf (litToken "CAPABILITY" tokenNone) enough
  have tagged := @comes_imap4OutResponse fuel (history ++
    heard (imap4Line imap4Untagged "CAPABILITY" capability.content)) rest (some tag) tag.buf
    (bytes "CAPABILITY") "OK" ours.ends ours.solid words_.2.2 (by decide) imap4OkToken (by omega)
  rw [imap4OutCheck, if_pos (by decide)] at untagged tagged
  refine comes_bind untagged ?_
  dsimp only
  rw [if_neg (by decide), missing]
  exact comes_bind tagged (comes_pure _)

/-- The real server is asked for its capabilities, and has not this one. -/
theorem comes_imap4OutGetCapability (ours : OurTag tag) (line : LineText capability) {absent : CString}
    (missing : findCapability ⟨absent.content, tokenDontCare⟩
      (lineTokens (words true (capability.content ++ [cr]))) = false)
    (enough : (capabilityReply tag capability ++ rest).length < fuel) :
    (imap4OutGetCapability true imap4OkToken tag none absent).Comes fuel history
      (capabilityReply tag capability ++ rest) (0, imap4TagInc tag, none)
      (history ++ said (imap4Ask tag "CAPABILITY") ++ heard (capabilityReply tag capability)) rest := by
  have ask := @comes_imap4Ask fuel history (capabilityReply tag capability ++ rest) tag ours
    "CAPABILITY" ⟨by decide, by decide, by decide⟩
  have reads := @comes_imap4OutReadCapability fuel (history ++ said (imap4Ask tag "CAPABILITY")) rest
    capability tag ours line absent missing enough
  exact comes_bind ask (comes_bind reads (comes_bind (comes_pure _) (comes_pure _)))

/-- The header of a literal that is carried is short. -/
theorem header_length {text : CString} (carried : LiteralText text) :
    (literalHeader false text.length).length ≤ 6 := by
  have limit : maxText < 10 ^ 4 := by decide
  have digits : (decimal text.length).length ≤ 4 := by
    rw [decimal, List.length_map]
    apply (Nat.length_toDigits_le_iff (by decide) (by decide)).mpr
    have := carried.2
    omega
  simp only [literalHeader, Bool.false_eq_true, if_false, List.append_nil, List.length_append,
    List.length_cons, List.length_nil]
  omega

/-- The line of `LOGIN` is sent. -/
theorem comes_loginWrite (ours : OurTag tag) (named : LiteralText user) :
    ((imap4Write nullFlag (some tag) (some (lit "LOGIN")) 1 (some (lit "\x7b%d\x7d"))
      [.nat user.length]).with .server).Comes fuel history rest 0
        (history ++ said (imap4Line tag.buf "LOGIN" (literalHeader false user.length))) rest := by
  have content : (lit "LOGIN").content = bytes "LOGIN" := content_lit (by decide)
  have size : (lit "LOGIN").length = 5 := by decide
  have format : (lit "\x7b%d\x7d").content = bytes "\x7b%d\x7d" := content_lit (by decide)
  have given : (lit "\x7b%d\x7d").length = 4 := by decide
  have limit : 32 < maxLineLength ∧ 32 < maxText := by decide
  have expand : vformat (bytes "\x7b%d\x7d" ++ crlf) [.nat user.length] =
      some (literalHeader false user.length ++ crlf) := by
    change vformat [123, 37, 100, 125, 13, 10] [.nat user.length] = _
    simp [vformat, literalHeader, crlf, cr, lf]
  have short := header_length named
  rw [imap4Write_expanded ours.noNul ours.plain (content.symm ▸ by decide) (by decide)
    (by rw [ours.len, size, given]; omega) (by rw [format]; decide) (by decide)
    (by rw [format]; exact expand) (by
      rw [ours.len, size, List.length_append, show crlf.length = 2 by decide]
      omega), content]
  exact comes_send _

/-- The user name is sent, with the header of the password. -/
theorem comes_userWrite (named : LiteralText user) (proved : LiteralText passwd) :
    ((imap4Write nullFlag none none 2 (some (lit "%s \x7b%d\x7d"))
      [.str user, .nat passwd.length]).with .server).Comes fuel history rest 0
        (history ++ said (user.content ++ space :: literalHeader false passwd.length ++ crlf))
        rest := by
  have format : (lit "%s \x7b%d\x7d").content = bytes "%s \x7b%d\x7d" := content_lit (by decide)
  have limit : maxText < maxLineLength := by decide
  have expand : vformat (bytes "%s \x7b%d\x7d") [.str user, .nat passwd.length] =
      some (user.content ++ space :: literalHeader false passwd.length) := by
    change vformat [37, 115, 32, 123, 37, 100, 125] [.str user, .nat passwd.length] = _
    simp [vformat, literalHeader, space]
  have short := header_length proved
  have sent : imap4Write nullFlag none none 2 (some (lit "%s \x7b%d\x7d"))
      [.str user, .nat passwd.length] =
        send (user.content ++ space :: literalHeader false passwd.length ++ crlf) := by
    change strWrite nullFlag 2 (lit "%s \x7b%d\x7d") [.str user, .nat passwd.length] = _
    rw [strWrite, format, expand, strVwrite_text (by decide) (by rw [format]; decide) (by
      have := named.2
      simp only [CString.length] at this
      simp only [List.length_append, List.length_cons]
      omega), if_neg (by decide)]
  rw [sent]
  exact comes_send _

/-- The password is sent. -/
theorem comes_passwdWrite (proved : LiteralText passwd) :
    ((imap4WriteStr nullFlag none none (some passwd)).with .server).Comes fuel history rest 0
      (history ++ said (passwd.content ++ crlf)) rest := by
  have format : (lit "%s").content = bytes "%s" := content_lit (by decide)
  have expand : vformat (bytes "%s") [.str passwd] = some passwd.content := by
    change vformat [37, 115] [.str passwd] = _
    simp [vformat]
  have sent : imap4WriteStr nullFlag none none (some passwd) = send (passwd.content ++ crlf) := by
    change strWrite nullFlag 1 (lit "%s") [.str passwd] = _
    rw [strWrite, format, expand, strVwrite_text (by decide) (by rw [format]; decide) (by
      have := proved.2
      simp only [CString.length] at this
      omega), if_neg (by decide)]
  rw [sent]
  exact comes_send _

/-- The status that the program reads from the word of an answer. -/
def Imap4Status (word : String) : Prop := word = "OK" ∨ word = "NO"

theorem Imap4Status.known {word : String} (known : Imap4Status word) :
    SolidWord (bytes word) ∧ WrittenWord word ∧ word.length ≤ 2 ∧
      tokenCmp imap4OkToken ⟨bytes word, tokenNone⟩ = decide (word = "OK") := by
  rcases known with rfl | rfl
  · exact ⟨by decide +kernel, ⟨by decide, by decide, by decide⟩, by decide, by decide⟩
  · exact ⟨by decide +kernel, ⟨by decide, by decide, by decide⟩, by decide, by decide⟩

/-- The other half of `LOGIN`. -/
theorem comes_imap4OutLogin {word : String} {text : CString} (ours : OurTag tag)
    (named : LiteralText user) (proved : LiteralText passwd) (known : Imap4Status word)
    (line : LineText text)
    (enough : (imap4Ready ++ (imap4Ready ++ (imap4Line tag.buf word text.content ++ rest))).length <
      fuel) :
    (imap4OutLogin tag user passwd none none).Comes fuel history
      (imap4Ready ++ (imap4Ready ++ (imap4Line tag.buf word text.content ++ rest)))
      (if word = "OK" then 1 else 0, none)
      (history ++ mirrored (loginTalk tag user passwd) ++ said crlf ++
        heard (imap4Line tag.buf word text.content)) rest := by
  obtain ⟨solid, -, -, compared⟩ := known.known
  have less := enough
  rw [List.length_append] at less
  have last := less
  rw [List.length_append] at last
  let asked := history ++ said (imap4Line tag.buf "LOGIN" (literalHeader false user.length))
  let named_ := asked ++ heard imap4Ready ++
    said (user.content ++ space :: literalHeader false passwd.length ++ crlf)
  let proved_ := named_ ++ heard imap4Ready ++ said (passwd.content ++ crlf)
  have whole : history ++ mirrored (loginTalk tag user passwd) ++ said crlf ++
      heard (imap4Line tag.buf word text.content) =
        proved_ ++ heard (imap4Line tag.buf word text.content) := by
    simp only [loginTalk, mirrored_append, mirrored_heard, mirrored_said]
    simp [proved_, named_, asked, said]
  have response := @comes_imap4OutResponse fuel proved_ rest (some tag) tag.buf text.content word
    ours.ends ours.solid solid line.noLf imap4OkToken (by omega)
  obtain ⟨r, first, kept⟩ := @comes_ready fuel asked
    (imap4Ready ++ (imap4Line tag.buf word text.content ++ rest)) enough
  obtain ⟨r', second, kept'⟩ := @comes_ready fuel named_
    (imap4Line tag.buf word text.content ++ rest) (by omega)
  have check : imap4OutCheck imap4OkToken (⟨bytes word, tokenNone⟩ ::
      lineTokens (words true (text.content ++ [cr]))) none =
        ⟨if word = "OK" then 1 else 0, if word = "OK" then lineTokens (words true (text.content ++ [cr]))
          else [], none⟩ := by
    rw [imap4OutCheck, compared]
    simp only [decide_eq_true_eq]
    split <;> rfl
  rw [check] at response
  rw [whole, imap4OutLogin]
  refine comes_bind (comes_loginWrite ours named) (comes_bind first ?_)
  rw [kept]
  refine comes_bind (comes_userWrite named proved) (comes_bind second ?_)
  rw [kept']
  exact comes_bind (comes_passwdWrite proved) (comes_bind response (comes_pure _))

/-- The other half of `out_authenticate`. -/
theorem comes_imap4OutAuthenticate {word : String} {text : CString} (ours : OurTag tag)
    (listed : LineText capability)
    (enabled : findCapability ⟨(lit "LOGINDISABLED").content, tokenDontCare⟩
      (lineTokens (words true (capability.content ++ [cr]))) = false) {auth : Auth}
    (name : auth.authenticationId = some user) (secret : auth.passwd = some passwd)
    (named : LiteralText user) (proved : LiteralText passwd) (known : Imap4Status word)
    (line : LineText text)
    (enough : (capabilityReply tag capability ++ (imap4Ready ++ (imap4Ready ++
      (imap4Line (imap4TagInc tag).buf word text.content ++ rest)))).length < fuel) :
    (imap4OutAuthenticate auth tag none).Comes fuel history
      (capabilityReply tag capability ++ (imap4Ready ++ (imap4Ready ++
        (imap4Line (imap4TagInc tag).buf word text.content ++ rest))))
      ⟨if word = "OK" then 1 else 0, imap4TagInc (imap4TagInc tag), none⟩
      (history ++ said (imap4Ask tag "CAPABILITY") ++ heard (capabilityReply tag capability) ++
        mirrored (loginTalk (imap4TagInc tag) user passwd) ++ said crlf ++
        heard (imap4Line (imap4TagInc tag).buf word text.content)) rest := by
  have less := enough
  rw [List.length_append] at less
  have login := @comes_imap4OutLogin fuel (history ++ said (imap4Ask tag "CAPABILITY") ++
    heard (capabilityReply tag capability)) rest user passwd (imap4TagInc tag) word text ours.inc named
    proved known line (by omega)
  refine comes_bind (comes_imap4OutGetCapability ours listed enabled enough) ?_
  dsimp only
  rw [if_neg (by decide), if_neg (by decide), name, secret]
  exact comes_bind login (comes_bind (comes_pure _) (comes_pure _))

end Client

/-! ## The conversation -/

/-- Texts that IMAP carries from one instance to another. -/
structure Imap4Carries (greeting capability user passwd text : CString) : Prop where
  /-- The greeting. -/
  greets : LineText greeting ∧ greeting.length + 64 ≤ maxText
  /-- The capabilities. -/
  lists : LineText capability ∧ capability.length + 64 ≤ maxText
  /-- The user name. -/
  names : LiteralText user
  /-- The password. -/
  proves : LiteralText passwd
  /-- The answer. -/
  answers : LineText text ∧ text.length + 64 ≤ maxText

/-- A login as the server has it, up to the end of the password. -/
def imap4LoginFront (tag : Token) (greeting capability user passwd : CString) : List (Byte ⊕ Byte) :=
  said (imap4Line imap4Untagged "OK" greeting.content) ++ heard (imap4Ask tag "CAPABILITY") ++
    said (capabilityReply tag capability) ++ loginTalk (imap4TagInc tag) user passwd

/-- A login as the server has it. -/
def imap4Login (tag : Token) (greeting capability user passwd : CString) (word : String)
    (text : CString) : List (Byte ⊕ Byte) :=
  imap4LoginFront tag greeting capability user passwd ++ heard crlf ++
    said (imap4Line (imap4TagInc tag).buf word text.content)

/-- The word that answers credentials. -/
def imap4Answer (refusal : Option CString) : String := if refusal.isNone then "OK" else "NO"

theorem imap4Answer_status (refusal : Option CString) : Imap4Status (imap4Answer refusal) := by
  cases refusal with
  | none => exact .inl rfl
  | some reason => exact .inr rfl

theorem verdict_answer (opt : Options) (refusal : Option CString) :
    (Protocol.imap4.verdict opt refusal).1 = lit (imap4Answer refusal) := by
  cases refusal with
  | none => rfl
  | some reason => rfl

theorem heardIn_loginTalk (tag : Token) (user passwd : CString) :
    heardIn (loginTalk tag user passwd) = loginBytes tag user passwd := by
  simp [loginTalk, loginBytes]

theorem saidIn_loginTalk (tag : Token) (user passwd : CString) :
    saidIn (loginTalk tag user passwd) = imap4Ready ++ imap4Ready := by
  simp [loginTalk]

section Chain

variable {opt : Options} {platform : Platform} {fuel : Nat}
  {greeting capability user passwd text : CString} {tag : Token}

/-- The server's half of a login. The end of the last line is not read. -/
theorem comes_imap4Serves {refusal : Auth → Option CString} (ours : OurTag tag)
    (takes : platform.TakesDigits)
    (told : (Protocol.imap4.verdict opt (refusal (Auth.setPwd (some user) (some passwd)))).2 = text)
    (carries : Imap4Carries greeting capability user passwd text)
    (greets : imap4GreetingStr opt platform = some (some greeting))
    (built : imap4Capability opt opt.sslMode sslModeEmpty = some capability)
    (enough : (imap4Ask tag "CAPABILITY" ++
      (loginBytes (imap4TagInc tag) user passwd ++ crlf)).length < fuel) :
    ((Protocol.imap4.serves opt platform refusal).with .server).Comes fuel []
      (imap4Ask tag "CAPABILITY" ++ (loginBytes (imap4TagInc tag) user passwd ++ crlf))
      (some ⟨0, some (Auth.setPwd (some user) (some passwd)), some (imap4TagInc tag)⟩)
      (imap4LoginFront tag greeting capability user passwd ++
        said (imap4Line (imap4TagInc tag).buf
          (imap4Answer (refusal (Auth.setPwd (some user) (some passwd)))) text.content)) crlf := by
  have less := enough
  rw [List.length_append] at less
  obtain ⟨rounds, rfl⟩ : ∃ rounds, fuel = rounds + 1 + 1 := by
    have positive : 2 ≤ (imap4Ask tag "CAPABILITY").length := by
      simp [imap4Ask, crlf]
      omega
    exact ⟨fuel - 2, by omega⟩
  let greeted := said (imap4Line imap4Untagged "OK" greeting.content)
  let listed := greeted ++ heard (imap4Ask tag "CAPABILITY") ++ said (capabilityReply tag capability)
  have first : Protocol.imap4.greeting opt platform =
      imap4WriteStr nullFlag none (some (lit "OK")) (some greeting) := by
    rw [Protocol.greeting, greets]
  have greet := @comes_imap4Untagged (rounds + 1 + 1) []
    (imap4Ask tag "CAPABILITY" ++ (loginBytes (imap4TagInc tag) user passwd ++ crlf)) "OK" greeting
    ⟨by decide, by decide, by decide⟩ carries.greets.2
  have capability_ := @comes_capability opt platform opt.sslMode sslModeEmpty (rounds + 1 + 1) greeted
    (loginBytes (imap4TagInc tag) user passwd ++ crlf) capability tag ours built carries.lists.2 enough
  have reply : greeted ++ heard (imap4Ask tag "CAPABILITY") ++
      said (imap4Line imap4Untagged "CAPABILITY" capability.content) ++
      said (imap4Line tag.buf "OK" (bytes "CAPABILITY")) = listed := by
    simp [listed, capabilityReply, said]
  rw [reply] at capability_
  have login := @comes_login opt platform opt.sslMode sslModeEmpty (rounds + 1 + 1) listed crlf user
    passwd (imap4TagInc tag) ours.inc takes carries.names carries.proves (by omega)
  have rounds_ : LoopComes (fun _ => (imap4InRound opt platform opt.sslMode sslModeEmpty).with .server)
      (rounds + 1 + 1) (rounds + 1 + 1) () _ _ _ _ _ := comes_again capability_ (comes_last login)
  rw [Protocol.serves, first]
  refine comes_bind greet ?_
  change Exchange.Comes (.loop (fun _ => (imap4InRound opt platform opt.sslMode sslModeEmpty).with
    .server) () >>= fun result => (Protocol.imap4.answers opt refusal result).with .server) _ _ _ _ _ _
  refine comes_bind (comes_loop rounds_) ?_
  have decided : Protocol.imap4.verdict opt (refusal (Auth.setPwd (some user) (some passwd))) =
      (lit (imap4Answer (refusal (Auth.setPwd (some user) (some passwd)))), text) :=
    Prod.ext (verdict_answer opt _) told
  rw [Protocol.answers_credentials .imap4 rfl decided]
  have known := (imap4Answer_status (refusal (Auth.setPwd (some user) (some passwd)))).known
  exact comes_bind (comes_imap4WriteStr ours.inc.noNul ours.inc.plain ours.inc.len.le known.2.1
    carries.answers.2) (comes_pure _)

/-- The other half of a login. -/
theorem comes_imap4LogsIn {own : CString} {word : String} (ours : OurTag tag)
    (carries : Imap4Carries greeting capability user passwd text) (known : Imap4Status word)
    (named : imap4GreetingStr opt platform = some (some own)) (other : greeting ≠ own)
    (plain : opt.sslMode.has sslModeTlsOutgoing = false)
    (enabled : findCapability ⟨(lit "LOGINDISABLED").content, tokenDontCare⟩
      (lineTokens (words true (capability.content ++ [cr]))) = false) {auth : Auth}
    (name : auth.authenticationId = some user) (secret : auth.passwd = some passwd)
    (enough : (imap4Line imap4Untagged "OK" greeting.content ++ (capabilityReply tag capability ++
      (imap4Ready ++ (imap4Ready ++ imap4Line (imap4TagInc tag).buf word text.content)))).length <
        fuel) :
    (Protocol.imap4.logsIn opt platform auth tag none).Comes fuel []
      (imap4Line imap4Untagged "OK" greeting.content ++ (capabilityReply tag capability ++
        (imap4Ready ++ (imap4Ready ++ imap4Line (imap4TagInc tag).buf word text.content))))
      (some ⟨if word = "OK" then 1 else 0, imap4TagInc (imap4TagInc tag), none⟩)
      (mirrored (imap4Login tag greeting capability user passwd word text)) [] := by
  have limit : maxText < maxLineLength := by decide
  have less := enough
  rw [List.length_append] at less
  have setup := @comes_imap4OutSetup opt platform fuel [] (capabilityReply tag capability ++
    (imap4Ready ++ (imap4Ready ++ imap4Line (imap4TagInc tag).buf word text.content))) greeting tag own
    carries.greets.1 (by have := carries.greets.2; omega) named other plain enough
  have authenticate := @comes_imap4OutAuthenticate fuel
    (heard (imap4Line imap4Untagged "OK" greeting.content)) [] user passwd capability tag word text
    ours carries.lists.1 enabled auth name secret carries.names carries.proves known
    carries.answers.1 (by rw [List.append_nil]; omega)
  rw [List.append_nil] at authenticate
  have same : mirrored (imap4Login tag greeting capability user passwd word text) =
      heard (imap4Line imap4Untagged "OK" greeting.content) ++ said (imap4Ask tag "CAPABILITY") ++
        heard (capabilityReply tag capability) ++ mirrored (loginTalk (imap4TagInc tag) user passwd) ++
        said crlf ++ heard (imap4Line (imap4TagInc tag).buf word text.content) := by
    simp only [imap4Login, imap4LoginFront, mirrored_append, mirrored_heard, mirrored_said]
  rw [same]
  exact comes_bind setup (comes_bind authenticate (comes_pure _))

end Chain

theorem Platform.sample_digits : Platform.sample.TakesDigits := by
  intro digits decimal_
  have noNul : 0 ∉ digits := fun nul => absurd (decimal_ 0 nul) (by decide)
  change (cstr digits).content.all isDigit = true
  rw [cstr_content noNul, List.all_eq_true]
  exact decimal_

end Perdition
