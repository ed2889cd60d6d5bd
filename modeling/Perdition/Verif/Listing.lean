import Perdition.Verif.Strings
import Perdition.Verif.Talk

/-!
# Capabilities of a ManageSieve server

A capability response is a list of lines, each a name and its values, and a line with the status.
`managesieve_out_capability` reads it one string at a time. It finds every string where the
tokeniser keeps it whole; what it makes of the values of SASL does not depend on the values.
-/
namespace Perdition

open Lib Program

/-! ## Responses -/

namespace Sieve

/-- How a string is sent. -/
inductive Form where
  /-- Between quotes. -/
  | quoted
  /-- As a literal, with a plus sign after its count or without. -/
  | literal (plus : Bool)
  deriving DecidableEq

/-- A string of the real server. Between quotes no NUL and no line end can be sent. -/
structure Str where
  /-- How it is sent. -/
  form : Form
  /-- Its bytes. -/
  content : List Byte
  /-- The form can carry them. -/
  sendable : form = .quoted → 0 ∉ content ∧ cr ∉ content ∧ lf ∉ content

/-- The bytes of a string on the wire. -/
def Str.wire (s : Str) : List Byte :=
  match s.form with
  | .quoted => quotedWire s.content
  | .literal plus => literalHeader plus s.content.length ++ crlf ++ s.content

/-- The values of a capability on the wire, and the end of its line. -/
def valuesWire : List Str → List Byte
  | [] => crlf
  | s :: rest => space :: (s.wire ++ valuesWire rest)

/-- A capability: a name and values. -/
structure Line where
  /-- The name. -/
  name : Str
  /-- The values. -/
  values : List Str

/-- The bytes of a capability on the wire. -/
def Line.wire (line : Line) : List Byte := line.name.wire ++ valuesWire line.values

/-- The bytes of capabilities on the wire. -/
def linesWire (lines : List Line) : List Byte := lines.flatMap Line.wire

/-- The status that ends a response. -/
inductive Ending where
  /-- The command was carried out. -/
  | ok
  /-- It was not. -/
  | no
  /-- The server closes the connection. -/
  | bye
  deriving DecidableEq

/-- The word for a status. -/
def Ending.word : Ending → List Byte
  | .ok => bytes "OK"
  | .no => bytes "NO"
  | .bye => bytes "BYE"

/-- A capability response. -/
structure Response where
  /-- The capabilities. -/
  lines : List Line
  /-- The status. -/
  ending : Ending
  /-- What follows the status up to the line feed. -/
  text : List Byte
  /-- It is one line. -/
  line : lf ∉ text
  /-- It is nothing, or it is set off by a space. -/
  setOff : text = [cr] ∨ ∃ rest, text = space :: rest

/-- The bytes of a response on the wire. -/
def Response.wire (r : Response) : List Byte :=
  linesWire r.lines ++ (r.ending.word ++ r.text ++ [lf])

/-- A value has PLAIN as one of its words. -/
def listsPlain (value : List Byte) : Bool :=
  (value.splitOn space).any fun word => word.map toLower == bytes "plain"

/-- SASL is a capability, and PLAIN is one of its values or in the list that is its value. -/
def Response.Plain (r : Response) : Prop :=
  ∃ line ∈ r.lines, line.name.content = bytes "SASL" ∧ ∃ s ∈ line.values, listsPlain s.content

/-- STARTTLS is a capability. -/
def Response.Starttls (r : Response) : Prop :=
  ∃ line ∈ r.lines, line.name.content = bytes "STARTTLS"

/-! ## Reading strings -/

/-- What `managesieve_out_capability` compares of a string: escapes are left in it, and it ends at a
NUL. -/
def Str.read (s : Str) : CString :=
  match s.form with
  | .quoted => cstr (escape s.content)
  | .literal _ => cstr s.content

/-- The tokeniser keeps a string whole, which others follow or not. Quotes are known in a line up to
its first literal. -/
def Str.Whole (platform : Platform) (quotes : Bool) (s : Str) (followed : Bool) : Prop :=
  match s.form with
  | .quoted => acapStrnIsQuoted platform (quotedWire s.content) ∧
      ∃ open_, openAfter quotes false (quotedWire s.content) = some open_ ∧
        (followed → open_ = false)
  | .literal _ => s.content ≠ [] ∧ s.content.length ≤ maxLineLength

theorem Str.whole_quoted {platform : Platform} {quotes followed : Bool} {s : Str}
    (quoted : s.form = .quoted) : s.Whole platform quotes followed ↔
      acapStrnIsQuoted platform (quotedWire s.content) ∧
        ∃ open_, openAfter quotes false (quotedWire s.content) = some open_ ∧
          (followed → open_ = false) := by
  rw [Str.Whole, quoted]

theorem Str.whole_literal {platform : Platform} {quotes followed plus : Bool} {s : Str}
    (literal : s.form = .literal plus) : s.Whole platform quotes followed ↔
      s.content ≠ [] ∧ s.content.length ≤ maxLineLength := by
  rw [Str.Whole, literal]

/-- Whether quotes are known after a string. -/
def Str.quotes (quotes : Bool) (s : Str) : Bool :=
  match s.form with
  | .quoted => quotes
  | .literal _ => false

/-- The tokeniser keeps all strings of a line whole. -/
def AllWhole (platform : Platform) : Bool → List Str → Prop
  | _, [] => True
  | quotes, s :: rest => s.Whole platform quotes (!rest.isEmpty) ∧
      AllWhole platform (s.quotes quotes) rest

/-- The strings of a line. -/
def Line.strings (line : Line) : List Str := line.name :: line.values

/-- No string is a literal that is longer than the buffer of the tokeniser. -/
def Line.Short (line : Line) : Prop :=
  ∀ s ∈ line.strings, s.form ≠ .quoted → s.content.length ≤ maxLineLength

/-! ## The lines of strings -/

/-- The rest of a line up to the line feed, after a string. -/
def restFront : List Str → List Byte
  | [] => [cr]
  | s :: rest => space :: match s.form with
    | .quoted => quotedWire s.content ++ restFront rest
    | .literal plus => literalHeader plus s.content.length ++ [cr]

/-- What follows that line feed. -/
def restBack : List Str → List Byte
  | [] => []
  | s :: rest => match s.form with
    | .quoted => restBack rest
    | .literal _ => s.content ++ valuesWire rest

/-- A string and the rest of its line up to the line feed. -/
def front (s : Str) (rest : List Str) : List Byte :=
  match s.form with
  | .quoted => quotedWire s.content ++ restFront rest
  | .literal plus => literalHeader plus s.content.length ++ [cr]

/-- What follows that line feed. -/
def back (s : Str) (rest : List Str) : List Byte :=
  match s.form with
  | .quoted => restBack rest
  | .literal _ => s.content ++ valuesWire rest

theorem restFront_cons (s : Str) (rest : List Str) : restFront (s :: rest) = space :: front s rest :=
  rfl

theorem restBack_cons (s : Str) (rest : List Str) : restBack (s :: rest) = back s rest := rfl

/-- The rest of a line ends at its first literal. -/
theorem valuesWire_split (rest : List Str) :
    valuesWire rest = restFront rest ++ lf :: restBack rest := by
  induction rest with
  | nil => rfl
  | cons s rest ih =>
    rw [valuesWire, restFront, restBack, Str.wire]
    cases s.form with
    | quoted => simp [ih]
    | literal plus => simp [crlf]

/-- A string and the rest of its line. -/
theorem wire_split (s : Str) (rest : List Str) :
    s.wire ++ valuesWire rest = front s rest ++ lf :: back s rest := by
  rw [front, back, Str.wire]
  cases s.form with
  | quoted => simp [valuesWire_split]
  | literal plus => simp [crlf]

theorem noLf_header (plus : Bool) (n : Nat) : lf ∉ literalHeader plus n ++ [cr] := by
  have inner : lf ∉ literalHeader plus n := fun member => (mem_header member).2.1 rfl
  simp [inner, show lf ≠ cr by decide]

theorem noLf_quoted {content : List Byte} (noLf : lf ∉ content) : lf ∉ quotedWire content := by
  intro member
  rw [quotedWire, List.mem_cons, List.mem_append, List.mem_singleton] at member
  rcases member with quote | inside | quote
  · exact absurd quote (by decide)
  · rcases mem_escape inside with slash | inside
    · exact absurd slash (by decide)
    · exact noLf inside
  · exact absurd quote (by decide)

/-- The front of a line has no line feed. -/
theorem noLf_restFront (rest : List Str) : lf ∉ restFront rest := by
  induction rest with
  | nil => decide
  | cons s rest ih =>
    rw [restFront, List.mem_cons, not_or]
    refine ⟨by decide, ?_⟩
    split
    · rename_i quoted
      rw [List.mem_append, not_or]
      exact ⟨noLf_quoted (s.sendable quoted).2.2, ih⟩
    · exact noLf_header _ _

theorem noLf_front (s : Str) (rest : List Str) : lf ∉ front s rest := by
  have inside := noLf_restFront (s :: rest)
  rw [restFront_cons, List.mem_cons, not_or] at inside
  exact inside.2

/-- The tokens left of a line, if there are any. -/
def pending (quotes : Bool) : List Str → Option Queue
  | [] => none
  | s :: rest => some (lineTokens (words quotes (front s rest)))

/-! ## Reading a string -/

/-- Bytes without spaces and quotes leave the quotes as they are. -/
theorem openAfter_plain (quotes quoted : Bool) {content : List Byte}
    (plain : ∀ b ∈ content, b ≠ space ∧ b ≠ dquote) :
    openAfter quotes quoted content = some quoted := by
  induction content with
  | nil => rfl
  | cons b content ih =>
    have first := plain b (List.mem_cons_self ..)
    rw [openAfter, if_neg (by simp [first]), beq_false_of_ne first.2, Bool.and_false,
      if_neg (by decide)]
    exact ih fun c member => plain c (List.mem_cons_of_mem b member)

/-- A string between quotes that is kept whole is the first token, and the others are left. -/
theorem tokens_quoted {platform : Platform} {quotes : Bool} {s : Str} {rest : List Str}
    (quoted : s.form = .quoted) (whole : s.Whole platform quotes (!rest.isEmpty)) :
    ∃ flag q, lineTokens (words quotes (front s rest)) = ⟨quotedWire s.content, flag⟩ :: q ∧
      queueOrNull q = pending quotes rest := by
  have ⟨accepted, open_, still, closed⟩ := (Str.whole_quoted quoted).mp whole
  have noCr := noCr_quotedWire (s.sendable quoted).2.1
  have short : (quotedWire s.content).length < maxLineLength := by
    simp only [acapStrnIsQuoted, Bool.and_eq_true, decide_eq_true_eq] at accepted
    have bound := accepted.1.1.1.2
    simp only [maxLineLength]
    omega
  rw [front, quoted]
  cases rest with
  | nil =>
    have single := (words_last quotes noCr short).1 (by rw [still]; rfl)
    dsimp only [restFront]
    rw [single]
    exact ⟨tokenEol, [], rfl, rfl⟩
  | cons next rest =>
    have split := (words_first quotes noCr short (front next rest)).1
      ⟨open_, still, closed rfl⟩
    dsimp only
    have more : words quotes (front next rest) ≠ [] := words_ne_nil _ _
    rw [restFront_cons, split, lineTokens_cons more]
    refine ⟨tokenNone, _, rfl, ?_⟩
    have some_ : lineTokens (words quotes (front next rest)) ≠ [] := by
      intro none_
      have buffers := lineTokens_buf (words quotes (front next rest))
      rw [none_] at buffers
      exact more buffers.symm
    rw [queueOrNull, if_neg (by simpa using some_), pending]

/-- A string between quotes that is not kept whole begins with a token that is no string. -/
theorem tokens_broken {platform : Platform} {quotes : Bool} {s : Str} {rest : List Str}
    (quoted : s.form = .quoted) (broken : ¬ s.Whole platform quotes (!rest.isEmpty)) :
    ∃ t q, lineTokens (words quotes (front s rest)) = t :: q ∧
      acapTokenStatus platform t = (.err, 0) := by
  have noCr := noCr_quotedWire (s.sendable quoted).2.1
  have line : front s rest = quotedWire s.content ++ restFront rest := by rw [front, quoted]
  cases split : words quotes (front s rest) with
  | nil => exact absurd split (wordsFrom_ne_nil _ _ _ _)
  | cons w others =>
    have first : (words quotes (quotedWire s.content ++ restFront rest)).head? = some w := by
      rw [← line, split]
      rfl
    obtain ⟨flag, q, tokens⟩ : ∃ flag q, lineTokens (w :: others) = ⟨w, flag⟩ :: q := by
      cases others with
      | nil => exact ⟨_, _, rfl⟩
      | cons next others => exact ⟨_, _, rfl⟩
    refine ⟨_, _, tokens, ?_⟩
    have opens : ∃ text, w = dquote :: text := by
      obtain ⟨back, begins⟩ := wordsFrom_begins quotes _ [] false w first
      have started : [dquote] <+: w := by
        refine wordsFrom_prefix quotes (escape s.content ++ [dquote] ++ restFront rest) [dquote]
          quotes w ?_
        have step : words quotes (quotedWire s.content ++ restFront rest) =
            wordsFrom quotes [dquote] quotes (escape s.content ++ [dquote] ++ restFront rest) := by
          rw [quotedWire, List.cons_append, words, wordsFrom, if_neg (by decide), if_neg (by decide),
            if_neg (by decide)]
          cases quotes <;> rfl
        rw [← step]
        exact first
      obtain ⟨text, same⟩ := started
      exact ⟨text, same.symm⟩
    obtain ⟨text, same⟩ := opens
    rw [same, acapTokenStatus_quote]
    refine if_neg fun accepted => broken ?_
    rw [← same] at accepted
    have whole := acapStrnIsQuoted_first (s.sendable quoted).2.1 first accepted
    rw [whole] at accepted first
    have short : (quotedWire s.content).length < maxLineLength := by
      simp only [acapStrnIsQuoted, Bool.and_eq_true, decide_eq_true_eq] at accepted
      have bound := accepted.1.1.1.2
      simp only [maxLineLength]
      omega
    refine (Str.whole_quoted quoted).mpr ⟨accepted, ?_⟩
    cases rest with
    | nil =>
      by_contra ended
      have none_ : openAfter quotes false (quotedWire s.content) = none := by
        cases state : openAfter quotes false (quotedWire s.content) with
        | none => rfl
        | some open_ => exact absurd ⟨open_, state, by simp⟩ ended
      exact (words_last quotes noCr short).2 none_ first
    | cons next rest =>
      by_contra ended
      have other : openAfter quotes false (quotedWire s.content) ≠ some false :=
        fun closed => ended ⟨false, closed, fun _ => rfl⟩
      rw [restFront_cons] at first
      exact (words_first quotes noCr short _).2 other first

/-! ## Runs -/

section Run

variable {platform : Platform} {fuel : Nat} {more : List Byte}

/-- The rest of a line after a literal begins with nothing, and goes on with the strings that are
left. -/
theorem tokens_rest (rest : List Str) :
    ∃ flag q, lineTokens (words false (restFront rest)) = ⟨[], flag⟩ :: q ∧
      queueOrNull q = pending false rest := by
  cases rest with
  | nil => exact ⟨tokenEol, [], rfl, rfl⟩
  | cons s rest =>
    have more : words false (front s rest) ≠ [] := words_ne_nil _ _
    have split : words false (restFront (s :: rest)) = [] :: words false (front s rest) := by
      rw [restFront_cons, words, wordsFrom, if_neg (by decide), if_pos (by simp)]
      rfl
    rw [split, lineTokens_cons more]
    refine ⟨tokenNone, _, rfl, ?_⟩
    have some_ : lineTokens (words false (front s rest)) ≠ [] := by
      intro none_
      have buffers := lineTokens_buf (words false (front s rest))
      rw [none_] at buffers
      exact more buffers.symm
    rw [queueOrNull, if_neg (by simpa using some_), pending]

/-- A literal that fits is read, and the rest of its line after it. -/
theorem run_literal {t : Talk} {content : List Byte} {rest : List Str} {announced : Token}
    (type : AcapType) (ends : announced.isEol = true) (some_ : content ≠ [])
    (short : content.length ≤ maxLineLength)
    (stream : t.stream = content ++ (valuesWire rest ++ more)) (enough : t.stream.length < fuel) :
    ∃ t', (acapTokenWrapperLiteral announced content.length type).run Talk.serverStep fuel t =
        .done ⟨0, type, pending false rest, some (cstr content)⟩ t' ∧
      t'.stream = restBack rest ++ more := by
  have positive : 1 ≤ content.length := List.length_pos_iff.mpr some_
  have taken : literalTaken content.length = content.length := by
    simp only [literalTaken]
    omega
  have scanned : scanToken none tokenImap4Literal content.length .start t.stream =
      some ((⟨content, tokenNone⟩, []), valuesWire rest ++ more) := by
    rw [scanToken_literalStart positive, taken, stream, if_neg (by simp), List.take_left,
      List.drop_left]
  have token := Talk.run_tokenRead none tokenImap4Literal content.length enough
  rw [Talk.run_server, scanned] at token
  have left : (t.advance (valuesWire rest ++ more)).stream =
      restFront rest ++ lf :: (restBack rest ++ more) := by
    simp [Talk.advance, valuesWire_split]
  have line := Talk.run_readLine lineFlag_pop3 0 (t := t.advance (valuesWire rest ++ more))
    (show (valuesWire rest ++ more).length < fuel by
      have length := congrArg List.length stream
      simp only [List.length_append] at length enough ⊢
      omega)
  rw [Talk.run_server, left, scanLine_line lineFlag_pop3 0 _ (noLf_restFront rest)] at line
  obtain ⟨flag, q, tokens, others⟩ := tokens_rest rest
  rw [show tokenPop3.has tokenImap4 = false by decide, tokens] at line
  refine ⟨(t.advance (valuesWire rest ++ more)).advance (restBack rest ++ more), ?_, rfl⟩
  rw [acapTokenWrapperLiteral, if_neg (by simp [ends]), if_neg (by omega), run_bind, token]
  simp only [Option.map_some, Outcome.next_done, tokenToString_noStrip, Talk.after]
  rw [run_bind, line]
  simp [Token.len, others, Talk.after]

/-- A literal of no bytes is taken for the end of its line. -/
theorem run_emptyLiteral {t : Talk} {announced : Token} {type : AcapType}
    (ends : announced.isEol = true) :
    (acapTokenWrapperLiteral announced 0 type).run Talk.serverStep fuel t =
      .done ⟨0, type, none, some .empty⟩ t := by
  rw [acapTokenWrapperLiteral, if_neg (by simp [ends]), if_pos rfl]
  rfl

/-- A header is the one token of its line. -/
theorem tokens_header (quotes plus : Bool) {n : Nat} (short : n ≤ maxLineLength) :
    lineTokens (words quotes (literalHeader plus n ++ [cr])) = [⟨literalHeader plus n, tokenEol⟩] := by
  have each (b : Byte) (member : b ∈ literalHeader plus n) : b ≠ space ∧ b ≠ dquote :=
    (mem_header member).2.2
  rw [(words_last quotes (fun return_ => (mem_header return_).1 rfl) (header_short plus short)).1 (by
    rw [openAfter_plain quotes false each]; rfl)]
  rfl

/-- A string that is kept whole is read, and what is left of its line is left. -/
theorem run_whole (state : CapabilityState) {quotes : Bool} {s : Str} {rest : List Str} {t : Talk}
    (whole : s.Whole platform quotes (!rest.isEmpty)) (stream : t.stream = back s rest ++ more)
    (enough : t.stream.length < fuel) :
    ∃ t', (managesieveOutString platform state (lineTokens (words quotes (front s rest)))).run
        Talk.step fuel t =
          .done (.inl (state.read s.read (pending (s.quotes quotes) rest))) t' ∧
      t'.stream = restBack rest ++ more := by
  cases form : s.form with
  | quoted =>
    obtain ⟨flag, q, tokens, others⟩ := tokens_quoted form whole
    have accepted := ((Str.whole_quoted form).mp whole).1
    rw [back, form] at stream
    refine ⟨t, ?_, stream⟩
    have status : acapTokenStatus platform ⟨quotedWire s.content, flag⟩ =
        (.quoted, (escape s.content).length) := by
      rw [quotedWire] at accepted ⊢
      rw [acapTokenStatus_quote, if_pos accepted]
      simp
    have str : strnToStr ((quotedWire s.content).drop 1)
        ((Token.mk (quotedWire s.content) flag).len - 2) = s.read := by
      simp [strnToStr, quotedWire, Token.len, Str.read, form]
    rw [managesieveOutString, run_bind, Talk.run_server, tokens, acapTokenWrapper, status]
    dsimp only
    rw [str, others]
    simp [Str.quotes, form]
  | literal plus =>
    obtain ⟨some_, short⟩ := (Str.whole_literal form).mp whole
    rw [back, form, List.append_assoc] at stream
    have small : s.content.length ≤ 4294967296 := by
      simp only [maxLineLength] at short
      omega
    obtain ⟨t', run, left⟩ := run_literal (literalType plus)
      (Token.isEol_eol (literalHeader plus s.content.length)) some_ short stream enough
    refine ⟨t', ?_, left⟩
    rw [front, form]
    dsimp only
    rw [managesieveOutString, run_bind, Talk.run_server, tokens_header quotes plus short,
      acapTokenWrapper_header platform plus small, run]
    cases plus <;> simp [Str.read, Str.quotes, form, literalType]

/-- A string between quotes that is not kept whole ends the reading with an error. -/
theorem run_broken (state : CapabilityState) {quotes : Bool} {s : Str} {rest : List Str} (t : Talk)
    (quoted : s.form = .quoted) (broken : ¬ s.Whole platform quotes (!rest.isEmpty)) :
    (managesieveOutString platform state (lineTokens (words quotes (front s rest)))).run Talk.step
      fuel t = .done (.inr (-1)) t := by
  have ⟨token, q, tokens, status⟩ := tokens_broken quoted broken
  rw [managesieveOutString, run_bind, Talk.run_server, tokens, acapTokenWrapper, status]
  rfl

/-- A literal of no bytes is read as the end of its line. -/
theorem run_empty (state : CapabilityState) {quotes plus : Bool} {s : Str} {rest : List Str}
    (t : Talk) (literal : s.form = .literal plus) (empty : s.content = []) :
    (managesieveOutString platform state (lineTokens (words quotes (front s rest)))).run Talk.step
      fuel t = .done (.inl (state.read .empty none)) t := by
  have tokens := tokens_header quotes plus (n := 0) (by decide)
  have wrapper := acapTokenWrapper_header platform plus (n := 0) (by decide) []
  have run : (acapTokenWrapperLiteral ⟨literalHeader plus 0, tokenEol⟩ 0 (literalType plus)).run
      Talk.serverStep fuel t = .done ⟨0, literalType plus, none, some .empty⟩ t :=
    run_emptyLiteral (Token.isEol_eol _)
  rw [front, literal, empty]
  dsimp only [List.length_nil]
  rw [managesieveOutString, run_bind, Talk.run_server, tokens, wrapper, run]
  cases plus <;> rfl

/-! ## The loop -/

/-- The body of the loop of `managesieve_out_capability`. -/
def round (platform : Platform) (state : CapabilityState) : Exchange (CapabilityState ⊕ Int) :=
  match state.q with
  | some q => managesieveOutString platform state q
  | none => do
    match ← (readLine none tokenImap4 0).with .server with
    | none => return .inr (-1)
    | some (q, _) => managesieveOutString platform state q

/-- The loop from these locals on. -/
def reads (platform : Platform) (fuel rounds : Nat) (state : CapabilityState) (t : Talk) :
    Outcome Talk Stop Int :=
  iterate (fun state t => (round platform state).run Talk.step fuel t) rounds state t

theorem run_capability (platform : Platform) (fuel : Nat) (t : Talk) :
    (managesieveOutCapability platform).run Talk.step fuel t =
      reads platform fuel fuel ⟨none, protocolSOk, true, false⟩ t := rfl

/-- A round that goes on. -/
theorem reads_again {state next : CapabilityState} {t t' : Talk} (rounds : Nat)
    (run : (round platform state).run Talk.step fuel t = .done (.inl next) t') :
    reads platform fuel (rounds + 1) state t = reads platform fuel rounds next t' := by
  rw [reads, iterate, run]
  rfl

/-- A round that ends the loop. -/
theorem reads_last {state : CapabilityState} {status : Int} {t t' : Talk} (rounds : Nat)
    (run : (round platform state).run Talk.step fuel t = .done (.inr status) t') :
    reads platform fuel (rounds + 1) state t = .done status t' := by
  rw [reads, iterate, run]
  rfl

/-- At the start of a line the line is read first. -/
theorem round_line (platform : Platform) {state : CapabilityState} {line more : List Byte} {t : Talk}
    (start : state.q = none) (noLf : lf ∉ line) (stream : t.stream = line ++ lf :: more)
    (enough : t.stream.length < fuel) :
    ∃ t', (round platform state).run Talk.step fuel t =
        (managesieveOutString platform state (lineTokens (words true line))).run Talk.step fuel t' ∧
      t'.stream = more := by
  have read := Talk.run_readLine lineFlag_imap4 0 enough
  rw [stream, scanLine_line lineFlag_imap4 0 more noLf,
    show tokenImap4.has tokenImap4 = true by decide] at read
  refine ⟨t.advance more, ?_, rfl⟩
  rw [round, start]
  dsimp only
  rw [run_bind, read]
  rfl

/-- PLAIN is never found. -/
theorem strcaseword_plain (str : CString) : strcaseword str (lit "PLAIN") = none := by
  have found_ : ∀ (haystack : List Byte) (place found : Nat),
      strcasestrFrom haystack (lit "PLAIN").content place = some found →
        place ≤ found ∧ ∃ b, haystack[found - place]? = some b ∧ toLower b = 112 := by
    intro haystack
    induction haystack with
    | nil =>
      intro place found search
      rw [strcasestrFrom, if_pos (by decide)] at search
      exact absurd search (by simp)
    | cons b rest ih =>
      intro place found search
      rw [strcasestrFrom] at search
      split at search
      · exact absurd search (by simp)
      · split at search
        · rename_i same
          obtain rfl := Option.some.inj search
          refine ⟨le_rfl, b, by simp, ?_⟩
          have first : some (toLower b) = some 112 :=
            (congrArg List.head? same).trans (by decide)
          exact Option.some.inj first
        · have ⟨later, c, here, letter⟩ := ih _ _ search
          refine ⟨by omega, c, ?_, letter⟩
          rw [show found - place = found - (place + 1) + 1 by omega]
          simpa using here
  rw [strcaseword, strcasedelimword]
  split
  · rfl
  · rename_i found search
    have ⟨_, b, here, letter⟩ := found_ _ _ _ search
    rw [Nat.sub_zero] at here
    have other : b ≠ lf ∧ (lit " ").content.contains b = false := by
      have each : ∀ b : Byte, toLower b = 112 → b ≠ lf ∧ (lit " ").content.contains b = false :=
        byte_of_nat (by decide +kernel)
      exact each b letter
    dsimp only
    split
    · rfl
    · rw [if_pos]
      rw [here]
      exact ⟨fun same => other.1 (Option.some.inj same), by simp only [other.2]; decide⟩

/-! ## Lines -/

/-- The locals where these strings of a line are left. -/
def left (quotes : Bool) (strings : List Str) (status : Nat) (sasl : Bool) : CapabilityState :=
  ⟨pending quotes strings, status, strings.isEmpty, sasl && !strings.isEmpty⟩

/-- The locals after a string. -/
theorem read_left {state : CapabilityState} {str : CString} (quotes : Bool) (rest : List Str) :
    state.read str (pending quotes rest) =
      left quotes rest
        (if state.isCapability then
          if str = lit "STARTTLS" then state.status ||| protocolSStarttls else state.status
        else if state.isSasl then state.status ||| protocolSSaslPlain else state.status)
        (state.isSasl || (state.isCapability && decide (str = lit "SASL"))) := by
  have other : lit "STARTTLS" ≠ lit "SASL" := by decide
  have ends : (pending quotes rest).isNone = rest.isEmpty := by cases rest <;> rfl
  rw [CapabilityState.read, strcaseword_plain, ends, left]
  have empty (rest_ : rest.isEmpty = true) : pending quotes rest = none := by
    simpa [rest_] using ends
  by_cases starttls : str = lit "STARTTLS"
  · cases capability : state.isCapability <;> cases sasl : state.isSasl <;>
      cases none_ : rest.isEmpty <;> simp [starttls, other, sasl, empty, none_]
  · by_cases mechanisms : str = lit "SASL"
    · cases capability : state.isCapability <;> cases sasl : state.isSasl <;>
        cases none_ : rest.isEmpty <;> simp [mechanisms, other.symm, sasl, empty, none_]
    · cases capability : state.isCapability <;> cases sasl : state.isSasl <;>
        cases none_ : rest.isEmpty <;> simp [starttls, mechanisms, sasl, empty, none_]

/-- The last string of a line leaves none of it. -/
theorem read_none (state : CapabilityState) (str : CString) : (state.read str none).q = none := by
  simp [CapabilityState.read]

/-- The locals after a value. -/
theorem read_value (quotes known sasl : Bool) (s : Str) (rest : List Str) (status : Nat)
    (str : CString) :
    (left known (s :: rest) status sasl).read str (pending quotes rest) =
      left quotes rest (if sasl then status ||| protocolSSaslPlain else status) sasl := by
  rw [read_left]
  simp [left]

/-- The locals after a name. -/
theorem read_name (quotes : Bool) (rest : List Str) (status : Nat) (str : CString) :
    (⟨none, status, true, false⟩ : CapabilityState).read str (pending quotes rest) =
      left quotes rest (if str = lit "STARTTLS" then status ||| protocolSStarttls else status)
        (decide (str = lit "SASL")) := by
  rw [read_left]
  simp

/-- The status after values. -/
def valuesStatus (values : List Str) (status : Nat) (sasl : Bool) : Nat :=
  if sasl && !values.isEmpty then status ||| protocolSSaslPlain else status

theorem valuesStatus_cons (s : Str) (rest : List Str) (status : Nat) (sasl : Bool) :
    valuesStatus rest (if sasl then status ||| protocolSSaslPlain else status) sasl =
      valuesStatus (s :: rest) status sasl := by
  have twice : status ||| protocolSSaslPlain ||| protocolSSaslPlain =
      status ||| protocolSSaslPlain := by
    rw [Nat.or_assoc, Nat.or_self]
  cases sasl
  · simp [valuesStatus]
  · cases rest <;> simp [valuesStatus, twice]

/-- What follows a string is no longer than what follows the string before it. -/
theorem restBack_length (s : Str) (rest : List Str) : (restBack rest).length ≤ (back s rest).length := by
  rw [back]
  split
  · exact le_rfl
  · rw [valuesWire_split]
    simp only [List.length_append, List.length_cons]
    omega

/-- Values that are kept whole are read to the end of the line. -/
theorem reads_values {quotes : Bool} {values : List Str} {t : Talk} (status : Nat) (sasl : Bool)
    (rounds : Nat) (whole : AllWhole platform quotes values)
    (stream : t.stream = restBack values ++ more) (enough : t.stream.length < fuel) :
    ∃ t', reads platform fuel (rounds + values.length) (left quotes values status sasl) t =
        reads platform fuel rounds ⟨none, valuesStatus values status sasl, true, false⟩ t' ∧
      t'.stream = more := by
  induction values generalizing quotes t status with
  | nil => exact ⟨t, by simp [left, pending, valuesStatus], stream⟩
  | cons s rest ih =>
    have ⟨first, others⟩ := whole
    have ⟨middle, run, next⟩ := run_whole (left quotes (s :: rest) status sasl) first stream enough
    have shorter : middle.stream.length < fuel := by
      have back_ := restBack_length s rest
      rw [stream, restBack_cons] at enough
      rw [next]
      simp only [List.length_append] at enough ⊢
      omega
    have ⟨t', again, last⟩ := ih (if sasl then status ||| protocolSSaslPlain else status) others
      next shorter
    refine ⟨t', ?_, last⟩
    rw [List.length_cons, ← Nat.add_assoc, reads_again _ run, read_value, again, valuesStatus_cons]

/-- After a literal of no bytes the rest of its line is read as a line, which has no string. -/
theorem reads_empty (platform : Platform) {state : CapabilityState} (rounds : Nat) {t : Talk}
    {rest : List Str} (start : state.q = none) (stream : t.stream = valuesWire rest ++ more)
    (enough : t.stream.length < fuel) :
    ∃ t', reads platform fuel (rounds + 1) state t = .done (-1) t' := by
  rw [valuesWire_split, List.append_assoc, List.cons_append] at stream
  have ⟨t', run, _⟩ := round_line platform start (noLf_restFront rest) stream enough
  have ⟨flag, q, tokens⟩ : ∃ flag q, lineTokens (words true (restFront rest)) = ⟨[], flag⟩ :: q := by
    cases rest with
    | nil => exact ⟨_, _, rfl⟩
    | cons s rest =>
      have some_ : words true (front s rest) ≠ [] := words_ne_nil _ _
      rw [restFront_cons, words, wordsFrom, if_neg (by decide), if_pos (by simp)]
      exact ⟨_, _, lineTokens_cons some_⟩
  refine ⟨t', reads_last _ (run.trans ?_)⟩
  rw [managesieveOutString, run_bind, Talk.run_server, tokens, acapTokenWrapper]
  rfl

/-- Values of which one is not kept whole end the reading with an error. -/
theorem reads_values_broken {quotes : Bool} {values : List Str} {t : Talk} (status : Nat)
    (sasl : Bool) (rounds : Nat) (broken : ¬ AllWhole platform quotes values)
    (short : ∀ s ∈ values, s.form ≠ .quoted → s.content.length ≤ maxLineLength)
    (stream : t.stream = restBack values ++ more) (enough : t.stream.length < fuel) :
    ∃ t', reads platform fuel (rounds + values.length + 1) (left quotes values status sasl) t =
      .done (-1) t' := by
  induction values generalizing quotes t status with
  | nil => exact absurd trivial broken
  | cons s rest ih =>
    by_cases first : s.Whole platform quotes (!rest.isEmpty)
    · have others : ¬ AllWhole platform (s.quotes quotes) rest := fun others => broken ⟨first, others⟩
      have ⟨middle, run, next⟩ := run_whole (left quotes (s :: rest) status sasl) first stream enough
      have shorter : middle.stream.length < fuel := by
        have back_ := restBack_length s rest
        rw [stream, restBack_cons] at enough
        rw [next]
        simp only [List.length_append] at enough ⊢
        omega
      have ⟨t', again⟩ := ih (if sasl then status ||| protocolSSaslPlain else status) others
        (fun s' member => short s' (List.mem_cons_of_mem s member)) next shorter
      refine ⟨t', ?_⟩
      rw [List.length_cons, reads_again _ run, read_value]
      exact again
    · cases form : s.form with
      | quoted => exact ⟨t, reads_last _ (run_broken (left quotes (s :: rest) status sasl) t form first)⟩
      | literal plus =>
        have empty : s.content = [] := by
          by_contra some_
          exact first ((Str.whole_literal form).mpr
            ⟨some_, short s (List.mem_cons_self ..) (by simp [form])⟩)
        have run : (round platform (left quotes (s :: rest) status sasl)).run Talk.step fuel t =
            .done (.inl ((left quotes (s :: rest) status sasl).read .empty none)) t :=
          run_empty (left quotes (s :: rest) status sasl) t form empty
        have after : t.stream = valuesWire rest ++ more := by
          rw [stream, restBack_cons, back, form, empty]
          rfl
        have ⟨t', failed⟩ := reads_empty platform (rounds + rest.length)
          (read_none (left quotes (s :: rest) status sasl) .empty) after enough
        refine ⟨t', ?_⟩
        rw [List.length_cons, ← Nat.add_assoc, reads_again _ run]
        exact failed

/-- The tokeniser keeps all strings of a capability whole. -/
def Line.Whole (platform : Platform) (line : Line) : Prop := AllWhole platform true line.strings

/-- The name is read as STARTTLS. -/
def Line.starttls (line : Line) : Bool := line.name.read = lit "STARTTLS"

/-- The name is read as SASL, and there are values. -/
def Line.sasl (line : Line) : Bool := line.name.read = lit "SASL" && !line.values.isEmpty

/-- The status where STARTTLS or SASL were read. -/
def bits (starttls sasl : Bool) : Nat :=
  protocolSOk ||| (if starttls then protocolSStarttls else 0) |||
    (if sasl then protocolSSaslPlain else 0)

theorem bits_line (starttls sasl : Bool) (line : Line) :
    valuesStatus line.values
        (if line.name.read = lit "STARTTLS" then bits starttls sasl ||| protocolSStarttls
          else bits starttls sasl) (decide (line.name.read = lit "SASL")) =
      bits (starttls || line.starttls) (sasl || line.sasl) := by
  rw [valuesStatus, Line.starttls, Line.sasl]
  cases starttls <;> cases sasl <;> cases decide (line.name.read = lit "SASL") <;>
    cases line.values.isEmpty <;> by_cases name : line.name.read = lit "STARTTLS" <;>
    simp [name] <;> decide

/-- The locals at the start of a line. -/
def lineStart (status : Nat) : CapabilityState := ⟨none, status, true, false⟩

/-- At the start of a line its name is the next string. -/
theorem round_name (platform : Platform) (status : Nat) (line : Line) {t : Talk}
    (stream : t.stream = line.wire ++ more) (enough : t.stream.length < fuel) :
    ∃ t', (round platform (lineStart status)).run Talk.step fuel t =
        (managesieveOutString platform (lineStart status)
          (lineTokens (words true (front line.name line.values)))).run Talk.step fuel t' ∧
      t'.stream = back line.name line.values ++ more ∧ t'.stream.length < fuel := by
  rw [Line.wire, wire_split, List.append_assoc, List.cons_append] at stream
  have ⟨t', run, next⟩ := round_line platform (show (lineStart status).q = none from rfl)
    (noLf_front line.name line.values) stream enough
  refine ⟨t', run, next, ?_⟩
  rw [stream] at enough
  rw [next]
  simp only [List.length_append, List.length_cons] at enough ⊢
  omega

/-- A capability whose strings are kept whole is read to the end of its line. -/
theorem reads_line (starttls sasl : Bool) (rounds : Nat) {line : Line} {t : Talk}
    (whole : line.Whole platform) (stream : t.stream = line.wire ++ more)
    (enough : t.stream.length < fuel) :
    ∃ t', reads platform fuel (rounds + line.strings.length) (lineStart (bits starttls sasl)) t =
        reads platform fuel rounds
          (lineStart (bits (starttls || line.starttls) (sasl || line.sasl))) t' ∧
      t'.stream = more := by
  have ⟨first, others⟩ := whole
  have ⟨middle, begun, next, shorter⟩ := round_name platform (bits starttls sasl) line stream enough
  have ⟨after, run, left_⟩ := run_whole (lineStart (bits starttls sasl)) first next shorter
  have enough' : after.stream.length < fuel := by
    have back_ := restBack_length line.name line.values
    rw [next] at shorter
    rw [left_]
    simp only [List.length_append] at shorter ⊢
    omega
  have ⟨t', again, last⟩ := reads_values
    (if line.name.read = lit "STARTTLS" then bits starttls sasl ||| protocolSStarttls
      else bits starttls sasl) (decide (line.name.read = lit "SASL")) rounds others left_ enough'
  refine ⟨t', ?_, last⟩
  rw [Line.strings, List.length_cons, ← Nat.add_assoc, reads_again _ (begun.trans run), lineStart,
    read_name, again, bits_line]
  rfl

/-- A capability of which one string is not kept whole ends the reading with an error. -/
theorem reads_line_broken (status rounds : Nat) {line : Line} {t : Talk}
    (broken : ¬ line.Whole platform) (short : line.Short) (stream : t.stream = line.wire ++ more)
    (enough : t.stream.length < fuel) :
    ∃ t', reads platform fuel (rounds + line.strings.length + 1) (lineStart status) t =
      .done (-1) t' := by
  have ⟨middle, begun, next, shorter⟩ := round_name platform status line stream enough
  have length : rounds + line.strings.length + 1 = rounds + line.values.length + 1 + 1 := by
    rw [Line.strings, List.length_cons]
    omega
  by_cases first : line.name.Whole platform true (!line.values.isEmpty)
  · have others : ¬ AllWhole platform (line.name.quotes true) line.values :=
      fun others => broken ⟨first, others⟩
    have ⟨after, run, left_⟩ := run_whole (lineStart status) first next shorter
    have enough' : after.stream.length < fuel := by
      have back_ := restBack_length line.name line.values
      rw [next] at shorter
      rw [left_]
      simp only [List.length_append] at shorter ⊢
      omega
    have ⟨t', failed⟩ := reads_values_broken
      (if line.name.read = lit "STARTTLS" then status ||| protocolSStarttls else status)
      (decide (line.name.read = lit "SASL")) rounds others
      (fun s member => short s (List.mem_cons_of_mem _ member)) left_ enough'
    refine ⟨t', ?_⟩
    rw [length, reads_again _ (begun.trans run), lineStart, read_name]
    exact failed
  · cases form : line.name.form with
    | quoted =>
      exact ⟨middle, reads_last _ (begun.trans (run_broken (lineStart status) middle form first))⟩
    | literal plus =>
      have empty : line.name.content = [] := by
        by_contra some_
        exact first ((Str.whole_literal form).mpr
          ⟨some_, short line.name (List.mem_cons_self ..) (by simp [form])⟩)
      have after : middle.stream = valuesWire line.values ++ more := by
        rw [next, back, form, empty]
        rfl
      have ⟨t', failed⟩ := reads_empty platform (rounds + line.values.length)
        (read_none (lineStart status) .empty) after shorter
      refine ⟨t', ?_⟩
      rw [length, reads_again _ (begun.trans (run_empty (lineStart status) middle form empty))]
      exact failed

/-! ## Responses -/

/-- The count of the strings of capabilities. -/
def count (lines : List Line) : Nat := (lines.map fun line => line.strings.length).sum

/-- Capabilities whose strings are kept whole are read. -/
theorem reads_lines (starttls sasl : Bool) (rounds : Nat) {lines : List Line} {t : Talk}
    (whole : ∀ line ∈ lines, line.Whole platform) (stream : t.stream = linesWire lines ++ more)
    (enough : t.stream.length < fuel) :
    ∃ t', reads platform fuel (rounds + count lines) (lineStart (bits starttls sasl)) t =
        reads platform fuel rounds
          (lineStart (bits (starttls || lines.any Line.starttls) (sasl || lines.any Line.sasl))) t' ∧
      t'.stream = more := by
  induction lines generalizing starttls sasl t with
  | nil => exact ⟨t, by simp [count], stream⟩
  | cons line lines ih =>
    rw [linesWire, List.flatMap_cons, List.append_assoc] at stream
    have ⟨middle, first, next⟩ := reads_line starttls sasl (rounds + count lines)
      (whole line (List.mem_cons_self ..)) stream enough
    have shorter : middle.stream.length < fuel := by
      rw [stream] at enough
      rw [next]
      simp only [List.length_append] at enough ⊢
      omega
    have ⟨t', again, last⟩ := ih (starttls || line.starttls) (sasl || line.sasl)
      (fun line' member => whole line' (List.mem_cons_of_mem line member)) next shorter
    refine ⟨t', ?_, last⟩
    have total : rounds + count (line :: lines) = rounds + count lines + line.strings.length := by
      simp only [count, List.map_cons, List.sum_cons]
      omega
    rw [total, first, again, List.any_cons, List.any_cons, Bool.or_assoc, Bool.or_assoc]

/-- Capabilities of which one string is not kept whole end the reading with an error. -/
theorem reads_lines_broken (starttls sasl : Bool) (rounds : Nat) {lines : List Line} {t : Talk}
    (broken : ¬ ∀ line ∈ lines, line.Whole platform) (short : ∀ line ∈ lines, line.Short)
    (stream : t.stream = linesWire lines ++ more) (enough : t.stream.length < fuel) :
    ∃ t', reads platform fuel (rounds + count lines + 1) (lineStart (bits starttls sasl)) t =
      .done (-1) t' := by
  induction lines generalizing starttls sasl t with
  | nil => exact absurd (by simp) broken
  | cons line lines ih =>
    rw [linesWire, List.flatMap_cons, List.append_assoc] at stream
    have total : rounds + count (line :: lines) + 1 =
        rounds + count lines + line.strings.length + 1 := by
      simp only [count, List.map_cons, List.sum_cons]
      omega
    by_cases first : line.Whole platform
    · have ⟨middle, run, next⟩ := reads_line starttls sasl (rounds + count lines + 1) first stream
        enough
      have shorter : middle.stream.length < fuel := by
        rw [stream] at enough
        rw [next]
        simp only [List.length_append] at enough ⊢
        omega
      have others : ¬ ∀ line ∈ lines, line.Whole platform := by
        intro others
        refine broken fun line' member => ?_
        rcases List.mem_cons.mp member with rfl | later
        · exact first
        · exact others line' later
      have ⟨t', failed⟩ := ih (starttls || line.starttls) (sasl || line.sasl) others
        (fun line' member => short line' (List.mem_cons_of_mem line member)) next shorter
      refine ⟨t', ?_⟩
      rw [total, Nat.add_right_comm, run]
      exact failed
    · have ⟨t', failed⟩ := reads_line_broken (bits starttls sasl) (rounds + count lines) first
        (short line (List.mem_cons_self ..)) stream enough
      exact ⟨t', by rw [total]; exact failed⟩

/-- The status word is an atom. -/
theorem acapTokenStatus_word (platform : Platform) (ending : Ending) (flag : Flag) :
    acapTokenStatus platform ⟨ending.word, flag⟩ = (.atom, ending.word.length) := by
  have small : ∀ b ∈ ending.word, platform.char b = b.toNat := by
    intro b member
    refine if_neg fun large => ?_
    have each : ∀ b ∈ ending.word, b.toNat < 128 := by cases ending <;> decide +kernel
    have low := each b member
    omega
  have atom : acapStrnIsAtom platform ending.word = true := by
    simp only [acapStrnIsAtom, Bool.and_eq_true, decide_eq_true_eq, List.all_eq_true]
    refine ⟨by cases ending <;> decide, fun b member => ?_⟩
    rw [small b member]
    revert b
    cases ending <;> decide +kernel
  have some_ : ending.word.isEmpty = false := by cases ending <;> rfl
  have other : ending.word.head? ≠ some 123 := by cases ending <;> decide
  rw [acapTokenStatus, if_neg (by simp [Token.isNull, some_]), if_pos (.inl other), if_pos atom]
  rfl

/-- The line with the status ends the reading. -/
theorem reads_ending (platform : Platform) (r : Response) (status rounds : Nat) {t : Talk}
    (stream : t.stream = r.ending.word ++ r.text ++ [lf] ++ more)
    (enough : t.stream.length < fuel) :
    ∃ t', reads platform fuel (rounds + 1) (lineStart status) t =
      .done (if r.ending = .ok then (status : Int) else 0) t' := by
  have noLf : lf ∉ r.ending.word ++ r.text := by
    rw [List.mem_append, not_or]
    exact ⟨by cases r.ending <;> decide, r.line⟩
  rw [List.append_assoc _ [lf] more, List.singleton_append] at stream
  have ⟨t', run, _⟩ := round_line platform (show (lineStart status).q = none from rfl) noLf stream
    enough
  have plain : ∀ b ∈ r.ending.word, b ≠ space ∧ b ≠ dquote := by
    cases r.ending <;> decide +kernel
  have noCr : cr ∉ r.ending.word := by cases r.ending <;> decide
  have short : r.ending.word.length < maxLineLength := by cases r.ending <;> decide
  have still := openAfter_plain true false plain
  have ⟨flag, q, tokens⟩ : ∃ flag q,
      lineTokens (words true (r.ending.word ++ r.text)) = ⟨r.ending.word, flag⟩ :: q := by
    rcases r.setOff with none_ | ⟨rest, some_⟩
    · rw [none_, (words_last true noCr short).1 (by rw [still]; rfl)]
      exact ⟨_, _, rfl⟩
    · have more_ : words true rest ≠ [] := words_ne_nil _ _
      rw [some_, (words_first true noCr short rest).1 ⟨false, still, rfl⟩, lineTokens_cons more_]
      exact ⟨_, _, rfl⟩
  have str : strnToStr r.ending.word (Token.mk r.ending.word flag).len = cstr r.ending.word := by
    simp [strnToStr, Token.len]
  refine ⟨t', reads_last _ (run.trans ?_)⟩
  rw [managesieveOutString, run_bind, Talk.run_server, tokens, acapTokenWrapper,
    acapTokenStatus_word]
  dsimp only
  rw [str]
  cases r.ending <;> rfl

/-- Every string takes bytes. -/
theorem strings_length (line : Line) : line.strings.length ≤ line.wire.length := by
  have values : ∀ rest : List Str, rest.length ≤ (valuesWire rest).length := by
    intro rest
    induction rest with
    | nil => decide
    | cons s rest ih =>
      simp only [valuesWire, List.length_cons, List.length_append]
      omega
  have name : 1 ≤ line.name.wire.length := by
    rw [Str.wire]
    split <;> simp [quotedWire, literalHeader]
  have rest := values line.values
  simp only [Line.strings, Line.wire, List.length_cons, List.length_append]
  omega

theorem count_length (lines : List Line) : count lines ≤ (linesWire lines).length := by
  induction lines with
  | nil => decide
  | cons line lines ih =>
    have first := strings_length line
    simp only [count, linesWire, List.map_cons, List.sum_cons, List.flatMap_cons,
      List.length_append] at ih ⊢
    omega

/-- The response leaves rounds for its status. -/
theorem count_fits (r : Response) {t : Talk} (stream : t.stream = r.wire ++ more)
    (enough : t.stream.length < fuel) : ∃ rounds, fuel = rounds + 1 + count r.lines := by
  have lines := count_length r.lines
  have length := congrArg List.length stream
  simp only [Response.wire, List.length_append, List.length_singleton] at length
  exact ⟨fuel - 1 - count r.lines, by omega⟩

/-- A response whose strings are kept whole is read to its status. -/
theorem run_response_whole (r : Response) {t : Talk}
    (whole : ∀ line ∈ r.lines, line.Whole platform) (stream : t.stream = r.wire ++ more)
    (enough : t.stream.length < fuel) :
    ∃ t', (managesieveOutCapability platform).run Talk.step fuel t =
      .done (if r.ending = .ok then
        (bits (r.lines.any Line.starttls) (r.lines.any Line.sasl) : Int) else 0) t' := by
  have ⟨rounds, total⟩ := count_fits r stream enough
  rw [Response.wire, List.append_assoc] at stream
  have ⟨middle, run, next⟩ := reads_lines false false (rounds + 1) whole stream enough
  have shorter : middle.stream.length < fuel := by
    rw [stream] at enough
    rw [next]
    simp only [List.length_append] at enough ⊢
    omega
  have ⟨t', last⟩ := reads_ending platform r
    (bits (r.lines.any Line.starttls) (r.lines.any Line.sasl)) rounds next shorter
  refine ⟨t', ?_⟩
  rw [run_capability]
  have start : reads platform fuel fuel ⟨none, protocolSOk, true, false⟩ t =
      reads platform fuel (rounds + 1 + count r.lines) (lineStart (bits false false)) t := by
    rw [← total]
    rfl
  rw [start, run, Bool.false_or, Bool.false_or, last]

/-- A response of which one string is not kept whole is refused. -/
theorem run_response_broken (r : Response) {t : Talk}
    (broken : ¬ ∀ line ∈ r.lines, line.Whole platform) (short : ∀ line ∈ r.lines, line.Short)
    (stream : t.stream = r.wire ++ more) (enough : t.stream.length < fuel) :
    ∃ t', (managesieveOutCapability platform).run Talk.step fuel t = .done (-1) t' := by
  have ⟨rounds, total⟩ := count_fits r stream enough
  rw [Response.wire, List.append_assoc] at stream
  have ⟨t', failed⟩ := reads_lines_broken false false rounds broken short stream enough
  refine ⟨t', ?_⟩
  have start : reads platform fuel fuel ⟨none, protocolSOk, true, false⟩ t =
      reads platform fuel (rounds + count r.lines + 1) (lineStart (bits false false)) t := by
    rw [Nat.add_right_comm, ← total]
    rfl
  rw [run_capability, start, failed]

end Run

/-! ## What a response means -/

/-- The result has the bits of the capabilities listed where the response ends with OK, and is 0 where
it ends with another status. -/
def CapabilitiesRead (platform : Platform) (fuel : Nat) (w : World) (r : Response) : Prop :=
  (managesieveOutCapability platform).Returns fuel w fun status _ =>
    (r.ending = .ok → 0 < status ∧
      (statusHas status protocolSSaslPlain = true ↔ r.Plain) ∧
      (statusHas status protocolSStarttls = true ↔ r.Starttls)) ∧
    (r.ending ≠ .ok → status = 0)

/-- Every string is kept whole, and where the response ends with OK a SASL capability with values
comes with PLAIN, and a name that is read as STARTTLS with STARTTLS. -/
structure CapabilitiesWork (platform : Platform) (r : Response) : Prop where
  /-- No string is broken. -/
  whole : ∀ line ∈ r.lines, line.Whole platform
  /-- No mechanisms are listed without PLAIN. -/
  plain : r.ending = .ok → (∃ line ∈ r.lines, line.sasl = true) → r.Plain
  /-- No name is cut to STARTTLS by a NUL. -/
  starttls : r.ending = .ok → (∃ line ∈ r.lines, line.starttls = true) → r.Starttls

/-- A name of letters is read as it is. -/
theorem Str.read_word {s : Str} {word : String} (plain : ∀ b ∈ bytes word, b ≠ dquote ∧ b ≠ backslash)
    (same : s.content = bytes word) : s.read = lit word := by
  rw [Str.read, same, escape_plain plain]
  split <;> rfl

/-- What is listed is read. -/
theorem Response.seen (r : Response) :
    (r.Plain → ∃ line ∈ r.lines, line.sasl = true) ∧
      (r.Starttls → ∃ line ∈ r.lines, line.starttls = true) := by
  constructor
  · rintro ⟨line, member, name, s, value, -⟩
    refine ⟨line, member, ?_⟩
    have read := line.name.read_word (by decide +kernel) name
    have some_ : line.values ≠ [] := List.ne_nil_of_mem value
    simp [Line.sasl, read, some_]
  · rintro ⟨line, member, name⟩
    refine ⟨line, member, ?_⟩
    have read := line.name.read_word (by decide +kernel) name
    simp [Line.starttls, read]

theorem bits_has (starttls sasl : Bool) :
    0 < (bits starttls sasl : Int) ∧
      statusHas (bits starttls sasl) protocolSSaslPlain = sasl ∧
      statusHas (bits starttls sasl) protocolSStarttls = starttls := by
  cases starttls <;> cases sasl <;> decide

section Claim

variable {platform : Platform} {fuel : Nat} {w : World} {t : Talk} {more : List Byte}

/-- What the result is of a response whose strings are kept whole. -/
theorem capabilitiesRead_whole (r : Response) (talks : w.Talks w.trace.length t)
    (stream : t.stream = r.wire ++ more) (enough : t.stream.length < fuel)
    (whole : ∀ line ∈ r.lines, line.Whole platform) :
    CapabilitiesRead platform fuel w r ↔ (r.ending = .ok →
      ((∃ line ∈ r.lines, line.sasl = true) → r.Plain) ∧
        ((∃ line ∈ r.lines, line.starttls = true) → r.Starttls)) := by
  have ⟨t', run⟩ := run_response_whole r whole stream enough
  have sends : (managesieveOutCapability platform).Obeys (sending fun _ => True) fun _ => True :=
    managesieveOutCapability_sending platform
  have ⟨positive, plain, starttls⟩ :=
    bits_has (r.lines.any Line.starttls) (r.lines.any Line.sasl)
  rw [CapabilitiesRead, Exchange.returns_iff sends talks, run]
  constructor
  · rintro ⟨status, last, same, ok, -⟩ ending
    have ⟨value, _⟩ := Outcome.done.inj same
    rw [if_pos ending] at value
    have ⟨_, first, second⟩ := ok ending
    rw [← value, plain, List.any_eq_true] at first
    rw [← value, starttls, List.any_eq_true] at second
    exact ⟨first.mp, second.mp⟩
  · intro works
    refine ⟨_, t', rfl, fun ending => ?_, fun other => if_neg other⟩
    have ⟨first, second⟩ := works ending
    rw [if_pos ending, plain, starttls, List.any_eq_true, List.any_eq_true]
    exact ⟨positive, ⟨first, r.seen.1⟩, ⟨second, r.seen.2⟩⟩

/-- A response with a broken string is not read as what it lists, unless a literal of it is longer
than the buffer. -/
theorem not_capabilitiesRead_broken (r : Response) (talks : w.Talks w.trace.length t)
    (stream : t.stream = r.wire ++ more) (enough : t.stream.length < fuel)
    (broken : ¬ ∀ line ∈ r.lines, line.Whole platform) (short : ∀ line ∈ r.lines, line.Short) :
    ¬ CapabilitiesRead platform fuel w r := by
  have ⟨t', run⟩ := run_response_broken r broken short stream enough
  have sends : (managesieveOutCapability platform).Obeys (sending fun _ => True) fun _ => True :=
    managesieveOutCapability_sending platform
  rw [CapabilitiesRead, Exchange.returns_iff sends talks, run]
  rintro ⟨status, last, same, ok, other⟩
  have ⟨value, _⟩ := Outcome.done.inj same
  by_cases ending : r.ending = .ok
  · have positive := (ok ending).1
    omega
  · have zero := other ending
    omega

/-- The capabilities of a ManageSieve server are read as listed where every string is kept whole and
mechanisms are not listed without PLAIN, and only there as long as no literal is longer than the
buffer of the tokeniser. -/
theorem capabilitiesRead_iff (r : Response) (talks : w.Talks w.trace.length t)
    (stream : t.stream = r.wire ++ more) (enough : t.stream.length < fuel) :
    (CapabilitiesWork platform r → CapabilitiesRead platform fuel w r) ∧
      ((∀ line ∈ r.lines, line.Short) →
        (CapabilitiesRead platform fuel w r ↔ CapabilitiesWork platform r)) := by
  have works : CapabilitiesWork platform r → CapabilitiesRead platform fuel w r := fun work =>
    (capabilitiesRead_whole r talks stream enough work.whole).mpr fun ending =>
      ⟨work.plain ending, work.starttls ending⟩
  refine ⟨works, fun short => ⟨fun read => ?_, works⟩⟩
  have whole : ∀ line ∈ r.lines, line.Whole platform := by
    by_contra broken
    exact not_capabilitiesRead_broken r talks stream enough broken short read
  have listed := (capabilitiesRead_whole r talks stream enough whole).mp read
  exact ⟨whole, fun ending => (listed ending).1, fun ending => (listed ending).2⟩

end Claim

/-- A string of letters between quotes. -/
def Str.letters (word : String) (plain : 0 ∉ bytes word ∧ cr ∉ bytes word ∧ lf ∉ bytes word) : Str :=
  ⟨.quoted, bytes word, fun _ => plain⟩

/-- STARTTLS, its name a literal. -/
def starttlsLine : Line := ⟨⟨.literal false, bytes "STARTTLS", by simp⟩, []⟩

/-- A server with these mechanisms and STARTTLS. -/
def Response.mechanisms (value : Str) : Response where
  lines := [⟨.letters "SASL" (by decide), [value]⟩, starttlsLine]
  ending := .ok
  text := [cr]
  line := by decide
  setOff := .inl rfl

theorem mechanisms_whole (value : Str) (whole : value.Whole Platform.sample true false) :
    ∀ line ∈ (Response.mechanisms value).lines, line.Whole Platform.sample := by
  have name : (Str.letters "SASL" (by decide)).Whole Platform.sample true true :=
    (Str.whole_quoted rfl).mpr ⟨by decide, false, by decide, fun _ => rfl⟩
  have literal : starttlsLine.name.Whole Platform.sample true false :=
    (Str.whole_literal rfl).mpr ⟨by decide, by decide⟩
  simp only [Response.mechanisms, List.mem_cons, List.not_mem_nil, or_false, forall_eq_or_imp,
    forall_eq]
  exact ⟨⟨name, whole, trivial⟩, literal, trivial⟩

/-- A server with LOGIN and PLAIN, whose response comes in two reads. -/
theorem capabilitiesRead_plain :
    CapabilitiesRead Platform.sample 64
      (World.connected [bytes "\"SASL\" \"LOG",
        bytes "IN PLAIN\"\r\n\x7b8\x7d\r\nSTARTTLS\r\nOK\r\n"])
      (.mechanisms (.letters "LOGIN PLAIN" (by decide))) := by
  have whole := mechanisms_whole (.letters "LOGIN PLAIN" (by decide))
    ((Str.whole_quoted rfl).mpr ⟨by decide, false, by decide, fun _ => rfl⟩)
  have listed : (Response.mechanisms (.letters "LOGIN PLAIN" (by decide))).Plain :=
    ⟨_, List.mem_cons_self .., rfl, _, List.mem_cons_self .., by decide⟩
  have named : (Response.mechanisms (.letters "LOGIN PLAIN" (by decide))).Starttls :=
    ⟨starttlsLine, by simp [Response.mechanisms], rfl⟩
  exact (capabilitiesRead_iff _ (World.connected_talks _)
    (show _ = Response.wire _ ++ [] by decide) (by decide)).1
      ⟨whole, fun _ _ => listed, fun _ _ => named⟩

/-- A server without PLAIN is read as one with it. -/
theorem capabilitiesRead_digest :
    ¬ CapabilitiesRead Platform.sample 64
      (World.connected [bytes "\"SASL\" \"DIGEST-MD5\"\r\n\x7b8\x7d\r\nSTARTTLS\r\nOK\r\n"])
      (.mechanisms (.letters "DIGEST-MD5" (by decide))) := by
  intro read
  have whole := mechanisms_whole (.letters "DIGEST-MD5" (by decide))
    ((Str.whole_quoted rfl).mpr ⟨by decide, false, by decide, fun _ => rfl⟩)
  have seen : ∃ line ∈ (Response.mechanisms (.letters "DIGEST-MD5" (by decide))).lines,
      line.sasl = true := ⟨_, List.mem_cons_self .., by decide⟩
  have ⟨line, member, name, s, value, plain⟩ :=
    ((capabilitiesRead_whole _ (World.connected_talks _)
      (show _ = Response.wire _ ++ [] by decide) (by decide) whole).mp read rfl).1 seen
  simp only [Response.mechanisms, List.mem_cons, List.not_mem_nil, or_false] at member
  rcases member with rfl | rfl
  · rw [List.mem_singleton.mp value] at plain
    exact absurd plain (by decide)
  · exact absurd name (by decide)

end Sieve

end Perdition
