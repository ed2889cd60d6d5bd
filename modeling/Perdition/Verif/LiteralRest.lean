import Perdition.Verif.Rightmost
import Perdition.Verif.Strings

/-!
# What follows a literal

`acap_token_wrapper_literal` takes the bytes of a literal and then reads the rest of its line, which
it splits at every space. The arguments of a ManageSieve line are quoted strings too, which hold
spaces.
-/
namespace Perdition

open Lib Program

/-! ## Arguments -/

/-- Where a byte of a line stands. -/
inductive Quoting where
  /-- Outside of quoted strings. -/
  | outside
  /-- Within a quoted string. -/
  | inside
  /-- Behind a backslash of a quoted string. -/
  | escaped
  deriving DecidableEq

/-- Where the byte behind this one stands. -/
def Quoting.next : Quoting → Byte → Quoting
  | .outside, b => if b = dquote then .inside else .outside
  | .inside, b => if b = dquote then .outside else if b = backslash then .escaped else .inside
  | .escaped, _ => .inside

/-- The arguments of the rest of a line within one of them. -/
def argumentsFrom (word : List Byte) (quoting : Quoting) : List Byte → List (List Byte)
  | [] => [word]
  | b :: rest =>
    if b = space ∧ quoting = .outside then word :: argumentsFrom [] .outside rest
    else argumentsFrom (word ++ [b]) (quoting.next b) rest

/-- The arguments of a line: what stands between the spaces outside of quoted strings. -/
def lineArguments (line : List Byte) : List (List Byte) := argumentsFrom [] .outside line

/-- No space stands within a quoted string, read on from here. -/
def Unspaced (quoting : Quoting) (line : List Byte) : Prop :=
  ∀ front back, line = front ++ space :: back → front.foldl Quoting.next quoting = .outside

/-- Every argument is short enough for the tokeniser, and no quoted one has a space. -/
def ArgumentsKept (line : List Byte) : Prop :=
  Unspaced .outside line ∧ ∀ word ∈ lineArguments line, word.length < maxLineLength

/-- The first argument starts with what was read of it. -/
theorem argumentsFrom_begins (line : List Byte) : ∀ word quoting,
    ∃ first rest, argumentsFrom word quoting line = first :: rest ∧ word.length ≤ first.length := by
  induction line with
  | nil => exact fun word quoting => ⟨word, [], rfl, le_rfl⟩
  | cons b line ih =>
    intro word quoting
    rw [argumentsFrom]
    split
    · exact ⟨word, _, rfl, le_rfl⟩
    · have ⟨first, rest, same, longer⟩ := ih (word ++ [b]) (quoting.next b)
      refine ⟨first, rest, same, ?_⟩
      rw [List.length_append] at longer
      omega

/-- The places behind the first byte of a line. -/
theorem Unspaced.cons {quoting : Quoting} {b : Byte} {line : List Byte} :
    Unspaced quoting (b :: line) ↔
      (b = space → quoting = .outside) ∧ Unspaced (quoting.next b) line := by
  constructor
  · intro all
    refine ⟨fun first => all [] line (by rw [first]; rfl), fun front back same => ?_⟩
    exact all (b :: front) back (by rw [same]; rfl)
  · rintro ⟨here, behind⟩ front back same
    cases front with
    | nil => exact here (List.cons.inj same).1
    | cons c front =>
      obtain ⟨rfl, others⟩ := List.cons.inj same
      exact behind front back others

/-- A line has no more arguments than spaces and one, and as many where no space is quoted. -/
theorem argumentsFrom_count (line : List Byte) : ∀ word quoting,
    (argumentsFrom word quoting line).length ≤ line.count space + 1 ∧
      ((argumentsFrom word quoting line).length = line.count space + 1 →
        Unspaced quoting line) := by
  induction line with
  | nil =>
    intro word quoting
    refine ⟨le_rfl, fun _ front back same => ?_⟩
    exact absurd same (by simp)
  | cons b line ih =>
    intro word quoting
    rw [argumentsFrom, Unspaced.cons]
    by_cases ends : b = space ∧ quoting = .outside
    · obtain ⟨rfl, rfl⟩ := ends
      have ⟨most, all⟩ := ih [] .outside
      rw [if_pos ⟨rfl, rfl⟩, List.length_cons, List.count_cons_self]
      exact ⟨by omega, fun same => ⟨fun _ => rfl, all (by omega)⟩⟩
    · rw [if_neg ends]
      have ⟨most, all⟩ := ih (word ++ [b]) (quoting.next b)
      by_cases blank : b = space
      · rw [blank, List.count_cons_self]
        rw [blank] at most
        exact ⟨by omega, fun same => by omega⟩
      · rw [List.count_cons_of_ne blank]
        exact ⟨most, fun same => ⟨fun same => absurd same blank, all same⟩⟩

/-! ## The words of the tokeniser -/

/-- The tokeniser makes no fewer words of a line than spaces and one; where it makes no more, the
words are short. -/
theorem wordsFrom_count (line : List Byte) : ∀ word, word.length < maxLineLength →
    line.count space + 1 ≤ (wordsFrom false word false line).length ∧
      ((wordsFrom false word false line).length = line.count space + 1 →
        ∀ w ∈ wordsFrom false word false line, w.length < maxLineLength) := by
  induction line with
  | nil =>
    intro word short
    simpa [wordsFrom] using short
  | cons b line ih =>
    intro word short
    rw [wordsFrom]
    by_cases return_ : b = cr
    · rw [if_pos return_, List.count_cons_of_ne (by rw [return_]; decide)]
      exact ih word short
    rw [if_neg return_]
    by_cases blank : b = space
    · obtain ⟨least, all⟩ := ih [] (by decide)
      rw [if_pos ⟨blank, rfl⟩, blank, List.count_cons_self, List.length_cons]
      refine ⟨by omega, fun same w inside => ?_⟩
      rcases List.mem_cons.mp inside with rfl | inside
      · exact short
      · exact all (by omega) w inside
    rw [if_neg (fun both => blank both.1), List.count_cons_of_ne blank]
    by_cases full : maxLineLength ≤ word.length + 1
    · -- the word is cut, which makes one more of it
      obtain ⟨least, _⟩ := ih [] (by decide)
      rw [if_pos full, List.length_cons]
      exact ⟨by omega, fun same => by omega⟩
    · rw [if_neg full, Bool.false_and, if_neg Bool.false_ne_true]
      exact ih (word ++ [b]) (by rw [List.length_append, List.length_singleton]; omega)

/-- Short arguments without spaces are the words of the tokeniser. -/
theorem wordsFrom_arguments (line : List Byte) (noCr : cr ∉ line) : ∀ word quoting,
    Unspaced quoting line →
    (∀ w ∈ argumentsFrom word quoting line, w.length < maxLineLength) →
    wordsFrom false word false line = argumentsFrom word quoting line := by
  induction line with
  | nil => exact fun _ _ _ _ => rfl
  | cons b line ih =>
    intro word quoting unspaced short
    obtain ⟨here, behind⟩ := Unspaced.cons.mp unspaced
    rw [List.mem_cons, not_or] at noCr
    obtain ⟨other, noCr⟩ := noCr
    rw [argumentsFrom] at short
    rw [wordsFrom, if_neg (Ne.symm other), argumentsFrom]
    by_cases blank : b = space
    · have outside := here blank
      rw [if_pos ⟨blank, outside⟩] at short
      rw [if_pos ⟨blank, rfl⟩, if_pos ⟨blank, outside⟩]
      rw [blank, outside] at behind
      rw [ih noCr [] .outside behind fun w inside => short w (List.mem_cons_of_mem _ inside)]
    · rw [if_neg (fun both => blank both.1)] at short
      obtain ⟨first, rest, same, longer⟩ := argumentsFrom_begins line (word ++ [b]) (quoting.next b)
      have room := short first (by rw [same]; exact List.mem_cons_self ..)
      rw [List.length_append, List.length_singleton] at longer
      rw [if_neg (fun both => blank both.1), if_neg (by omega), Bool.false_and,
        if_neg Bool.false_ne_true, if_neg (fun both => blank both.1)]
      exact ih noCr _ _ behind short

/-- The words of the rest of a line are its arguments exactly where these are kept. -/
theorem words_arguments_iff {line : List Byte} (noCr : cr ∉ line) :
    words false line = lineArguments line ↔ ArgumentsKept line := by
  constructor
  · intro same
    have ⟨least, short⟩ := wordsFrom_count line [] (by decide)
    have ⟨most, unspaced⟩ := argumentsFrom_count line [] .outside
    have lengths := congrArg List.length same
    rw [words, lineArguments] at lengths
    refine ⟨unspaced (by omega), fun w inside => short (by omega) w ?_⟩
    rw [← same] at inside
    exact inside
  · rintro ⟨unspaced, short⟩
    exact wordsFrom_arguments line noCr [] .outside unspaced short

/-- The first word of a line is empty exactly where the line is, or starts with a space. -/
theorem words_empty_first {line : List Byte} {rest : List (List Byte)}
    (split_ : words false line = [] :: rest) :
    (withoutCr line = [] ∧ rest = []) ∨
      ∃ args, withoutCr line = space :: args ∧ rest = words false args := by
  rw [← words_withoutCr, words] at split_
  have noCr := not_mem_withoutCr line
  cases left : withoutCr line with
  | nil =>
    rw [left, wordsFrom, List.cons.injEq] at split_
    exact .inl ⟨rfl, split_.2.symm⟩
  | cons b args =>
    rw [left] at noCr split_
    rw [List.mem_cons, not_or] at noCr
    obtain ⟨other, _⟩ := noCr
    rw [wordsFrom, if_neg (Ne.symm other)] at split_
    by_cases blank : b = space
    · rw [if_pos ⟨blank, rfl⟩, List.cons.injEq] at split_
      exact .inr ⟨args, by rw [blank], split_.2.symm⟩
    · rw [if_neg (fun both => blank both.1), if_neg (by decide), Bool.false_and,
        if_neg Bool.false_ne_true] at split_
      have begins := wordsFrom_prefix false args ([] ++ [b]) false [] (by rw [split_]; rfl)
      exact absurd begins.length_le (by simp)

/-! ## Consumption -/

/-- A literal was taken from the stream: its bytes, and the rest of its line. The line ends behind the
literal, or a space follows and the queue holds the arguments behind that. -/
def LiteralConsumed (n : Nat) (stream left : List Byte) (read : AcapTokenWrapperStatus) : Prop :=
  ∃ body line, stream = body ++ line ++ lf :: left ∧ body.length = n ∧ lf ∉ line ∧
    ((withoutCr line = [] ∧ read.q = none) ∨
      ∃ args, withoutCr line = space :: args ∧ read.q = some (lineTokens (lineArguments args)))

/-- The literal is not empty, and the arguments that follow it are kept. -/
def LiteralExact (n : Nat) (stream : List Byte) : Prop :=
  n ≠ 0 ∧ ∀ line left args, stream.drop n = line ++ lf :: left → lf ∉ line →
    withoutCr line = space :: args → ArgumentsKept args

theorem lineTokens_inj {left right : List (List Byte)}
    (same : lineTokens left = lineTokens right) : left = right := by
  rw [← lineTokens_buf left, ← lineTokens_buf right, same]

theorem queueOrNull_lineTokens {words_ : List (List Byte)} (some_ : words_ ≠ []) :
    queueOrNull (lineTokens words_) = some (lineTokens words_) := by
  rw [queueOrNull, if_neg]
  rw [List.isEmpty_iff]
  intro nothing
  have same := lineTokens_buf words_
  rw [nothing] at same
  exact some_ same.symm

/-- What the rest of a line leaves in the queue behind its first, empty, word. -/
theorem rest_consumed {body line left : List Byte} {read : AcapTokenWrapperStatus} {t : Token}
    {q : Queue} (noLf : lf ∉ line) (tokens : lineTokens (words false line) = t :: q)
    (empty : t.len = 0) (rest : read.q = queueOrNull q) :
    LiteralConsumed body.length (body ++ (line ++ lf :: left)) left read ↔
      ∀ args, withoutCr line = space :: args → ArgumentsKept args := by
  have others : ∀ args, withoutCr line = space :: args → cr ∉ args := by
    intro args cut inside
    have all : cr ∉ withoutCr line := by simp [withoutCr]
    rw [cut] at all
    exact all (List.mem_cons_of_mem _ inside)
  -- the words of the line are the empty one and those behind it
  have split_ : ∃ behind, words false line = [] :: behind ∧ q = lineTokens behind := by
    have buffers := lineTokens_buf (words false line)
    rw [tokens, List.map_cons, List.length_eq_zero_iff.mp empty] at buffers
    refine ⟨q.map Token.buf, buffers.symm, ?_⟩
    rw [← buffers] at tokens
    cases q with
    | nil => rfl
    | cons next q =>
      rw [lineTokens_cons (by simp)] at tokens
      exact (List.cons.inj tokens).2.symm
  obtain ⟨behind, front, same⟩ := split_
  rw [same] at rest
  have consumed : LiteralConsumed body.length (body ++ (line ++ lf :: left)) left read ↔
      ((withoutCr line = [] ∧ read.q = none) ∨
        ∃ args, withoutCr line = space :: args ∧
          read.q = some (lineTokens (lineArguments args))) := by
    constructor
    · rintro ⟨body', line', stream, length, noLf', found⟩
      rw [List.append_assoc] at stream
      obtain ⟨_, ends⟩ := List.append_inj stream length.symm
      rw [(first_unique noLf noLf' ends).1]
      exact found
    · exact fun found => ⟨body, line, (List.append_assoc ..).symm, rfl, noLf, found⟩
  rw [consumed]
  rcases words_empty_first front with ⟨nothing, rfl⟩ | ⟨args, cut, rfl⟩
  · refine ⟨fun _ args cut => ?_, fun _ => .inl ⟨nothing, rest⟩⟩
    rw [nothing] at cut
    cases cut
  · have some_ : words false args ≠ [] := wordsFrom_ne_nil false args [] false
    rw [queueOrNull_lineTokens some_] at rest
    have keeps := words_arguments_iff (others args cut)
    rw [cut]
    constructor
    · rintro (⟨nothing, _⟩ | ⟨args', same', found⟩) args'' same''
      · cases nothing
      · obtain ⟨-, rfl⟩ := List.cons.inj same'
        obtain ⟨-, rfl⟩ := List.cons.inj same''
        rw [rest] at found
        exact keeps.mp (lineTokens_inj (Option.some.inj found))
    · intro kept
      refine .inr ⟨args, rfl, ?_⟩
      rw [rest, keeps.mpr (kept args rfl)]

/-- Where `acap_token_wrapper` succeeds with a literal, it has consumed the literal and its line and
returned the arguments that follow exactly where the literal is not empty, no quoted argument has a
space and all of them are short enough for the tokeniser. -/
theorem acapTokenWrapper_consumed_iff (platform : Platform) {t : Token} (q : Queue) {plus : Bool}
    {n : Nat} (literal : acapTokenStatus platform t = (literalType plus, n))
    (small : n ≤ maxLineLength) {fuel : Nat} {ch ch' : Channel} (enough : ch.stream.length < fuel)
    {read : AcapTokenWrapperStatus}
    (run_ : (acapTokenWrapper platform (t :: q)).run Channel.step fuel ch = .done read ch')
    (success : read.status = 0) :
    LiteralConsumed n ch.stream ch'.stream read ↔ LiteralExact n ch.stream := by
  have ends : t.isEol = true := acapTokenStatus_eol (by cases plus <;> simp [literalType]) literal
  have wrapped : (acapTokenWrapperLiteral t n (literalType plus)).run Channel.step fuel ch =
      .done read ch' := by
    rw [← run_]
    cases plus <;> simp only [acapTokenWrapper, literal, literalType] <;> rfl
  rw [acapTokenWrapperLiteral, if_neg (by simp [ends])] at wrapped
  by_cases zero : n = 0
  · rw [if_pos zero] at wrapped
    injection wrapped with value same
    rw [← same]
    constructor
    · rintro ⟨body, line, stream, length, _⟩
      have lengths := congrArg List.length stream
      simp only [List.length_append, List.length_cons] at lengths
      omega
    · exact fun exact_ => absurd zero exact_.1
  rw [if_neg zero] at wrapped
  have positive : 1 ≤ n := Nat.one_le_iff_ne_zero.mpr zero
  have taken : literalTaken n = n := Nat.min_eq_left small
  obtain ⟨middle, token, here⟩ := tokenRead_literal positive ch enough
  rw [taken] at token here
  rw [run_bind, token] at wrapped
  by_cases short : ch.stream.length < n
  · rw [if_pos short] at wrapped
    injection wrapped with value _
    rw [← value] at success
    cases success
  rw [if_neg short, Outcome.next_done] at wrapped
  simp only [tokenToString_noStrip] at wrapped
  have behind := here (by omega)
  rw [run_bind] at wrapped
  obtain ⟨after, line, last⟩ := readLine_streamed middle.streamed
    (show tokenPop3.has tokenImap4Literal = false by decide) 0 (.refl middle)
    (show middle.stream.length < fuel by rw [behind, List.length_drop]; omega)
  rw [line] at wrapped
  rw [behind] at wrapped last
  have start : ch.stream.take n ++ ch.stream.drop n = ch.stream := List.take_append_drop ..
  have length : (ch.stream.take n).length = n := by
    rw [List.length_take]
    omega
  by_cases open_ : lf ∈ ch.stream.drop n
  · obtain ⟨text, left, same, noLf⟩ := List.eq_append_cons_of_mem open_
    rw [same, scanLine_line lineFlag_pop3 0 left noLf] at wrapped last
    have drained : after.stream = left := last.stream
    simp only [Option.map_some, Outcome.next_done] at wrapped
    cases tokens : lineTokens (words (tokenPop3.has tokenImap4) text) with
    | nil =>
      simp only [tokens] at wrapped
      injection wrapped with value _
      rw [← value] at success
      cases success
    | cons first others =>
      simp only [tokens] at wrapped
      by_cases garbage : first.len ≠ 0
      · rw [if_pos garbage] at wrapped
        injection wrapped with value _
        rw [← value] at success
        cases success
      rw [if_neg garbage] at wrapped
      injection wrapped with value final
      rw [← final, drained, LiteralExact, same]
      have consumed := @rest_consumed (ch.stream.take n) text left read first others noLf
        tokens (not_not.mp garbage) (by rw [← value])
      rw [length, ← same, start] at consumed
      rw [consumed]
      constructor
      · intro kept
        refine ⟨zero, fun line left' args same' noLf' cut => kept args ?_⟩
        rw [(first_unique noLf noLf' same').1]
        exact cut
      · exact fun exact_ args cut => exact_.2 text left args rfl noLf cut
  · rw [scanLine_open lineFlag_pop3 0 open_] at wrapped
    injection wrapped with value _
    rw [← value] at success
    cases success

/-- An argument follows a literal. -/
theorem acapTokenWrapper_argument :
    LiteralConsumed 5 (Channel.reading [bytes "hello x\r\n"]).stream (Channel.reading []).stream
      ⟨0, .sychronisingLiteral, some [⟨bytes "x", tokenEol⟩], some (lit "hello")⟩ := by
  have stream : (Channel.reading [bytes "hello x\r\n"]).stream.drop 5 =
      bytes " x\r" ++ lf :: [] := by decide
  have announced : acapTokenStatus Platform.sample ⟨bytes "\x7b5\x7d", tokenEol⟩ =
      (literalType false, 5) := by decide +kernel
  have enough : (Channel.reading [bytes "hello x\r\n"]).stream.length < 16 := by decide
  refine (acapTokenWrapper_consumed_iff Platform.sample [] announced (by decide) enough
    (by decide +kernel) rfl).mpr ⟨by decide, fun line left args same noLf cut => ?_⟩
  rw [stream] at same
  rw [← (first_unique (by decide) noLf same).1] at cut
  have rest : args = bytes "x" := (List.cons.inj (cut.symm.trans (by decide : _ = bytes " x"))).2
  rw [rest]
  refine ⟨fun front back same => ?_, by decide⟩
  exact absurd (show space ∈ bytes "x" by rw [same]; simp) (by decide)

/-- Behind an empty literal the end of its line is left for the next command. -/
theorem acapTokenWrapper_empty :
    acapTokenStatus Platform.sample ⟨bytes "\x7b0\x7d", tokenEol⟩ = (literalType false, 0) ∧
      (acapTokenWrapper Platform.sample [⟨bytes "\x7b0\x7d", tokenEol⟩]).run Channel.step 16
        (Channel.reading [crlf]) =
          .done ⟨0, .sychronisingLiteral, none, some .empty⟩ (Channel.reading [crlf]) ∧
      ¬ LiteralConsumed 0 (Channel.reading [crlf]).stream (Channel.reading [crlf]).stream
        ⟨0, .sychronisingLiteral, none, some .empty⟩ := by
  refine ⟨by decide +kernel, by decide +kernel, ?_⟩
  rintro ⟨body, line, stream, length, _⟩
  have lengths := congrArg List.length stream
  simp only [List.length_append, List.length_cons] at lengths
  omega

end Perdition
