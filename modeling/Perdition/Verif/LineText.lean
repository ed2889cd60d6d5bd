import Perdition.Pop3In
import Perdition.Verif.Relays

/-!
# Lines put together again

A line is split at its spaces and joined by spaces, so what is left out is its carriage returns and
nothing else. The password of a POP3 client is therefore the text after its command.
-/
namespace Perdition

open Lib Program

/-! ## Pieces -/

/-- The pieces of a line at its spaces, from within a piece on. Carriage returns are left out, and
where quotes are known a space between them splits nothing. -/
def linePiecesFrom (quotes : Bool) (piece : List Byte) (quoted : Bool) :
    List Byte → List (List Byte)
  | [] => [piece]
  | b :: rest =>
    if b = cr then linePiecesFrom quotes piece quoted rest
    else if b = space ∧ !quoted then piece :: linePiecesFrom quotes [] false rest
    else linePiecesFrom quotes (piece ++ [b]) (if quotes && b == dquote then !quoted else quoted)
      rest

/-- The pieces of a line. -/
def linePieces (quotes : Bool) (line : List Byte) : List (List Byte) :=
  linePiecesFrom quotes [] false line

/-- A piece that has begun is the start of the first one. -/
theorem linePiecesFrom_begins (quotes : Bool) (line : List Byte) :
    ∀ piece quoted, ∃ rest others,
      linePiecesFrom quotes piece quoted line = (piece ++ rest) :: others := by
  induction line with
  | nil => exact fun piece quoted => ⟨[], [], by rw [linePiecesFrom, List.append_nil]⟩
  | cons b line ih =>
    intro piece quoted
    rw [linePiecesFrom]
    split
    · exact ih piece quoted
    · split
      · exact ⟨[], _, by rw [List.append_nil]⟩
      · have ⟨rest, others, same⟩ :=
          ih (piece ++ [b]) (if quotes && b == dquote then !quoted else quoted)
        exact ⟨b :: rest, others, by rw [same, List.append_assoc, List.singleton_append]⟩

theorem linePiecesFrom_ne_nil (quotes : Bool) (piece : List Byte) (quoted : Bool)
    (line : List Byte) : linePiecesFrom quotes piece quoted line ≠ [] := by
  have ⟨rest, others, same⟩ := linePiecesFrom_begins quotes line piece quoted
  rw [same]
  exact List.cons_ne_nil _ _

theorem linePieces_ne_nil (quotes : Bool) (line : List Byte) : linePieces quotes line ≠ [] :=
  linePiecesFrom_ne_nil quotes [] false line

/-- The pieces joined by spaces are the line without its carriage returns. -/
theorem linePiecesFrom_join (quotes : Bool) (line : List Byte) :
    ∀ piece quoted,
      List.intercalate [space] (linePiecesFrom quotes piece quoted line) =
        piece ++ withoutCr line := by
  induction line with
  | nil =>
    intro piece quoted
    rw [linePiecesFrom, List.intercalate_singleton]
    exact (List.append_nil piece).symm
  | cons b line ih =>
    intro piece quoted
    rw [linePiecesFrom]
    by_cases return_ : b = cr
    · rw [if_pos return_, ih]
      simp [withoutCr, return_]
    have kept : withoutCr (b :: line) = b :: withoutCr line := by simp [withoutCr, return_]
    rw [if_neg return_, kept]
    split
    · rename_i splits
      rw [intercalate_cons (linePiecesFrom_ne_nil _ _ _ _), ih, splits.1, List.nil_append]
    · rw [ih, List.append_assoc, List.singleton_append]

/-- Where no piece is as long as the buffer, the words are the pieces. -/
theorem wordsFrom_pieces (quotes : Bool) (line : List Byte) :
    ∀ piece quoted,
      (∀ w ∈ linePiecesFrom quotes piece quoted line, w.length < maxLineLength) →
      wordsFrom quotes piece quoted line = linePiecesFrom quotes piece quoted line := by
  induction line with
  | nil => exact fun piece quoted short => rfl
  | cons b line ih =>
    intro piece quoted short
    rw [linePiecesFrom] at short ⊢
    rw [wordsFrom]
    by_cases return_ : b = cr
    · rw [if_pos return_] at short ⊢
      rw [if_pos return_]
      exact ih _ _ short
    rw [if_neg return_] at short ⊢
    rw [if_neg return_]
    by_cases splits : b = space ∧ !quoted
    · rw [if_pos splits] at short ⊢
      rw [if_pos splits, ih _ _ fun w member => short w (List.mem_cons_of_mem _ member)]
    rw [if_neg splits] at short ⊢
    rw [if_neg splits]
    -- the piece goes on, so it is shorter than the buffer with this byte too
    obtain ⟨rest, others, same⟩ := linePiecesFrom_begins quotes line (piece ++ [b])
      (if quotes && b == dquote then !quoted else quoted)
    have room := short (piece ++ [b] ++ rest) (same ▸ List.mem_cons_self)
    rw [List.length_append, List.length_append, List.length_singleton] at room
    rw [if_neg (by omega)]
    exact ih _ _ short

/-- Every byte of a piece is in the line. -/
theorem mem_piecesFrom {quotes : Bool} {b : Byte} (line : List Byte) :
    ∀ piece quoted, ∀ w ∈ linePiecesFrom quotes piece quoted line,
      b ∈ w → b ∈ piece ∨ b ∈ line := by
  induction line with
  | nil =>
    intro piece quoted w member inside
    rw [linePiecesFrom, List.mem_singleton] at member
    exact .inl (member ▸ inside)
  | cons c line ih =>
    intro piece quoted w member inside
    rw [linePiecesFrom] at member
    split at member
    · exact (ih _ _ w member inside).imp_right (List.mem_cons_of_mem c)
    · split at member
      · rcases List.mem_cons.mp member with first | later
        · exact .inl (first ▸ inside)
        · rcases ih _ _ w later inside with empty_ | deep
          · cases empty_
          · exact .inr (List.mem_cons_of_mem c deep)
      · rcases ih _ _ w member inside with begun | deep
        · rcases List.mem_append.mp begun with early | last
          · exact .inl early
          · rw [List.mem_singleton.mp last]
            exact .inr List.mem_cons_self
        · exact .inr (List.mem_cons_of_mem c deep)

/-! ## Lines -/

/-- The pieces of this line all fit the buffer of `token_read`, and the line has neither a line feed
nor a NUL. -/
structure LineFits (quotes : Bool) (line : List Byte) : Prop where
  /-- The line has no end in it. -/
  whole : lf ∉ line
  /-- It is a string. -/
  noNul : 0 ∉ line
  /-- Every piece is shorter than the buffer. -/
  short : ∀ w ∈ linePieces quotes line, w.length < maxLineLength

/-- A line is read as the queue of its pieces, and the string of the queue is the line again. -/
theorem readLine_fits {flag : Flag} (lines : LineFlag flag) (m : Nat) {ch : Channel}
    {line rest : List Byte} (arrives : ch.stream = line ++ lf :: rest)
    (fits : LineFits (flag.has tokenImap4) line) {fuel : Nat} (enough : ch.stream.length < fuel) :
    ∃ ch', run Channel.step fuel (readLine none flag m) ch =
      .done (some (lineTokens (linePieces (flag.has tokenImap4) line), [])) ch' ∧
        ch.Reaches ch' rest := by
  have ⟨ch', read, left⟩ := readLine_streamed (Channel.streamed ch) lines.normal m
    (Channel.Reaches.refl ch) enough
  rw [arrives, scanLine_line lines m rest fits.whole, words,
    wordsFrom_pieces _ _ _ _ fits.short] at read left
  exact ⟨ch', read, left⟩

/-- The string of the pieces of a line is the line without its carriage returns. -/
theorem queueToString_pieces {quotes : Bool} {line : List Byte} :
    queueToString (lineTokens (linePieces quotes line)) = some (cstr (withoutCr line)) := by
  rw [queueToString_lineTokens (linePieces_ne_nil quotes line), linePieces, linePiecesFrom_join,
    List.nil_append]

/-! ## Passwords -/

/-- A first piece of plain bytes is ended by the first space. -/
theorem pieces_command {command : List Byte} (plain : ∀ b ∈ command, b ≠ cr ∧ b ≠ space)
    (text : List Byte) :
    linePieces false (command ++ space :: text) = command :: linePieces false text := by
  have front : ∀ (command piece : List Byte), (∀ b ∈ command, b ≠ cr ∧ b ≠ space) →
      linePiecesFrom false piece false (command ++ space :: text) =
        (piece ++ command) :: linePieces false text := by
    intro command
    induction command with
    | nil =>
      intro piece _
      rw [List.nil_append, linePiecesFrom, if_neg (by decide), if_pos (by decide), List.append_nil]
      rfl
    | cons b command ih =>
      intro piece plain
      have here := plain b List.mem_cons_self
      rw [List.cons_append, linePiecesFrom, if_neg here.1, if_neg (fun splits => here.2 splits.1),
        Bool.false_and, if_neg (by decide),
        ih (piece ++ [b]) fun c member => plain c (List.mem_cons_of_mem b member)]
      simp
  exact front command [] plain

/-- The command `PASS` in any case. -/
def IsPass (command : List Byte) : Prop := command.map toLower = bytes "pass"

theorem IsPass.plain {command : List Byte} (given : IsPass command) :
    ∀ b ∈ command, b ≠ cr ∧ b ≠ space := by
  have letters : ∀ b : Byte, toLower b ∈ bytes "pass" → b ≠ cr ∧ b ≠ space :=
    byte_of_nat (by decide +kernel)
  intro b member
  apply letters
  rw [← given]
  exact List.mem_map_of_mem member

theorem IsPass.length {command : List Byte} (given : IsPass command) : command.length = 4 := by
  have size := congrArg List.length given
  rwa [List.length_map] at size

theorem IsPass.noNul {command : List Byte} (given : IsPass command) : 0 ∉ command := by
  have low : toLower 0 ∉ bytes "pass" := by decide
  intro nul
  apply low
  rw [← given]
  exact List.mem_map_of_mem nul

/-- It is told from the other commands. -/
theorem IsPass.isCmd {command : List Byte} (given : IsPass command) (flag : Flag)
    (other : CString) :
    pop3IsCmd ⟨command, flag⟩ other =
      decide (bytes "pass" = (cstr (other.content.take 4)).content.map toLower) := by
  rw [pop3IsCmd, strncaseEq, Token.len, given.length, List.take_of_length_le given.length.le,
    cstr_content given.noNul, given]

/-- `PASS` with an argument returns the name that is set and the argument. -/
theorem pop3InCommand_pass (opt : Options) (capability : CString) {command : List Byte}
    (given : IsPass command) (name : CString) {q : Queue} (some_ : q ≠ []) {passwd : CString}
    (joined : queueToString q = some passwd) (flag : Flag) :
    pop3InCommand opt capability ⟨command, flag⟩ q (some name) =
      pure (.inr ⟨0, some (Auth.setPwd (some name) (some passwd)), none⟩) := by
  have null_ : Token.isNull ⟨command, flag⟩ = false := by
    have size := given.length
    cases command with
    | nil => cases size
    | cons b command => rfl
  have size : Token.len ⟨command, flag⟩ = 4 := given.length
  have is (other : CString) := given.isCmd flag other
  have capa : pop3IsCmd ⟨command, flag⟩ (lit "CAPA") = false := (is _).trans (by decide)
  have stls : pop3IsCmd ⟨command, flag⟩ (lit "STLS") = false := (is _).trans (by decide)
  have user : pop3IsCmd ⟨command, flag⟩ (lit "USER") = false := (is _).trans (by decide)
  have pass : pop3IsCmd ⟨command, flag⟩ (lit "PASS") = true := (is _).trans (by decide)
  have filled : q.isEmpty = false := List.isEmpty_eq_false_iff.mpr some_
  simp [pop3InCommand, pop3InErrIf, pop3InLoginCmd, pop3InPass, null_, size, capa, stls, user, pass,
    filled, joined]

/-! ## Both together -/

/-- The string of the queue read from a line is the line without its carriage returns, and the
password of a client that has named itself is the text after `PASS`. -/
theorem lines_rebuilt {ch : Channel} {line rest : List Byte}
    (arrives : ch.stream = line ++ lf :: rest) {fuel : Nat} (enough : ch.stream.length < fuel) :
    (∀ flag m, flag = tokenPop3 ∨ flag = tokenImap4 → LineFits (flag.has tokenImap4) line →
      ∃ q text ch', run Channel.step fuel (readLine none flag m) ch = .done (some (q, [])) ch' ∧
        ch'.stream = rest ∧ queueToString q = some text ∧
        text.content = line.filter (· ≠ cr)) ∧
    ∀ opt capability name command text, line = command ++ space :: text → IsPass command →
      LineFits false line →
      ∃ passwd ch', run Channel.step fuel (pop3InRound opt capability (some name)) ch =
        .done (.inr ⟨0, some (Auth.setPwd (some name) (some passwd)), none⟩) ch' ∧
        ch'.stream = rest ∧ passwd.content = text.filter (· ≠ cr) := by
  constructor
  · intro flag m mode fits
    have lines : LineFlag flag := by
      rcases mode with same | same <;> rw [same]
      · exact lineFlag_pop3
      · exact lineFlag_imap4
    have ⟨ch', read, left⟩ := readLine_fits lines m arrives fits enough
    have clean : 0 ∉ withoutCr line := fun nul => fits.noNul (List.mem_filter.mp nul).1
    exact ⟨_, _, ch', read, left.stream, queueToString_pieces, cstr_content clean⟩
  · intro opt capability name command text same given fits
    have ⟨ch', read, left⟩ := readLine_fits lineFlag_pop3 0 arrives
      (show LineFits (tokenPop3.has tokenImap4) line from fits) enough
    have noNul : 0 ∉ text := fun nul =>
      fits.noNul (same ▸ List.mem_append_right _ (List.mem_cons_of_mem _ nul))
    have clean : 0 ∉ withoutCr text := fun nul => noNul (List.mem_filter.mp nul).1
    have split : lineTokens (linePieces (tokenPop3.has tokenImap4) line) =
        ⟨command, tokenNone⟩ :: lineTokens (linePieces false text) := by
      have first : linePieces (tokenPop3.has tokenImap4) line =
          command :: linePieces false text := by
        rw [same]
        exact pieces_command given.plain text
      rw [first, lineTokens_cons (linePieces_ne_nil _ _)]
    have some_ : lineTokens (linePieces false text) ≠ [] := by
      intro empty_
      have bufs := lineTokens_buf (linePieces false text)
      rw [empty_] at bufs
      exact linePieces_ne_nil _ _ bufs.symm
    refine ⟨_, ch', ?_, left.stream, cstr_content clean⟩
    rw [pop3InRound, run_bind, read, split]
    exact congrArg (fun round => run Channel.step fuel round ch')
      (pop3InCommand_pass opt capability given name some_ queueToString_pieces tokenNone)

/-- A line with spaces at its end and two in the middle, and a carriage return in it. -/
theorem lines_rebuilt_spaces :
    (∃ q text ch', run Channel.step 64 (readLine none tokenImap4 0)
        (Channel.reading [bytes "pass  a\r  b \r\n"]) = .done (some (q, [])) ch' ∧
      ch'.stream = [] ∧ queueToString q = some text ∧
      text.content = (bytes "pass  a\r  b \r").filter (· ≠ cr)) ∧
    ∃ passwd ch', run Channel.step 64 (pop3InRound Options.sample .empty (some (lit "u")))
        (Channel.reading [bytes "pass  a\r  b \r\n"]) =
      .done (.inr ⟨0, some (Auth.setPwd (some (lit "u")) (some passwd)), none⟩) ch' ∧
      ch'.stream = [] ∧ passwd.content = (bytes " a\r  b \r").filter (· ≠ cr) := by
  have arrives : (Channel.reading [bytes "pass  a\r  b \r\n"]).stream =
      bytes "pass  a\r  b \r" ++ lf :: [] := by decide
  have shape : bytes "pass  a\r  b \r" = bytes "pass" ++ space :: bytes " a\r  b \r" := by decide
  have fits : LineFits false (bytes "pass  a\r  b \r") := ⟨by decide, by decide, by decide⟩
  have quoted : LineFits (tokenImap4.has tokenImap4) (bytes "pass  a\r  b \r") :=
    ⟨by decide, by decide, by decide⟩
  have rebuilt := @lines_rebuilt _ _ _ arrives 64 (by decide)
  exact ⟨rebuilt.1 tokenImap4 0 (.inr rfl) quoted, rebuilt.2 Options.sample .empty (lit "u") _ _
    shape (show (bytes "pass").map toLower = bytes "pass" by decide) fits⟩

end Perdition
