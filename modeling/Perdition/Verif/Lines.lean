import Perdition.Verif.Streams

/-!
# Lines and their words

A line on the wire is what comes before a line feed. Its tokens are its words: the tokeniser drops
carriage returns, splits at spaces outside double quotes where its flag knows them, and cuts a word
that fills its buffer. Joined by spaces, the words of a line that fits are the line again.
-/
namespace Perdition

open Lib Program

/-! ## Words -/

/-- The words of a line from within a word on, of which these bytes are known. -/
def wordsFrom (quotes : Bool) (word : List Byte) (quoted : Bool) : List Byte → List (List Byte)
  | [] => [word]
  | b :: rest =>
    if b = cr then wordsFrom quotes word quoted rest
    else if b = space ∧ !quoted then word :: wordsFrom quotes [] false rest
    else if maxLineLength ≤ word.length + 1 then (word ++ [b]) :: wordsFrom quotes [] false rest
    else wordsFrom quotes (word ++ [b]) (if quotes && b == dquote then !quoted else quoted) rest

/-- The words of a line. -/
def words (quotes : Bool) (line : List Byte) : List (List Byte) := wordsFrom quotes [] false line

/-- The tokens of a line with these words. -/
def lineTokens : List (List Byte) → Queue
  | [] => []
  | [word] => [⟨word, tokenEol⟩]
  | word :: rest => ⟨word, tokenNone⟩ :: lineTokens rest

theorem wordsFrom_ne_nil (quotes : Bool) (line : List Byte) :
    ∀ word quoted, wordsFrom quotes word quoted line ≠ [] := by
  induction line with
  | nil => simp [wordsFrom]
  | cons b line ih =>
    intro word quoted
    rw [wordsFrom]
    split
    · exact ih _ _
    · split
      · simp
      · split
        · simp
        · exact ih _ _

/-- A word that has begun is the start of the first one. -/
theorem wordsFrom_prefix (quotes : Bool) (line : List Byte) :
    ∀ word quoted, ∀ w ∈ (wordsFrom quotes word quoted line).head?, word <+: w := by
  induction line with
  | nil => simp [wordsFrom]
  | cons b line ih =>
    intro word quoted w first
    rw [wordsFrom] at first
    split at first
    · exact ih _ _ _ first
    · split at first
      · simp_all
      · split at first
        · simp only [List.head?_cons, Option.mem_def, Option.some.injEq] at first
          exact ⟨[b], first⟩
        · exact (List.prefix_append word [b]).trans (ih _ _ _ first)

/-- A first word without quotes that is not cut ends at the first space. -/
theorem wordsFrom_head {quotes : Bool} {w : List Byte} (short : w.length < maxLineLength)
    (plain : dquote ∉ w) (line : List Byte) :
    ∀ word, w ∈ (wordsFrom quotes word false line).head? →
      w = word ++ (line.takeWhile (· ≠ space)).filter (· ≠ cr) := by
  induction line with
  | nil =>
    intro word first
    simpa [wordsFrom, eq_comm] using first
  | cons b line ih =>
    intro word first
    rw [wordsFrom] at first
    by_cases return_ : b = cr
    · subst return_
      rw [if_pos rfl] at first
      simpa [show cr ≠ space by decide] using ih word first
    rw [if_neg return_] at first
    by_cases end_ : b = space
    · subst end_
      simpa [eq_comm] using first
    rw [if_neg (by simp [end_])] at first
    split at first
    · rename_i long
      simp only [List.head?_cons, Option.mem_def, Option.some.injEq] at first
      rw [← first, List.length_append, List.length_singleton] at short
      omega
    · have started := wordsFrom_prefix _ _ _ _ _ first
      have other : (b == dquote) = false := by
        refine beq_false_of_ne fun same => plain ?_
        subst same
        exact started.subset (by simp)
      rw [other, Bool.and_false, if_neg (by simp)] at first
      have rest := ih (word ++ [b]) first
      simpa [return_, end_] using rest

/-- A line without spaces is one word, where it is not cut. -/
theorem wordsFrom_single {quotes : Bool} {w : List Byte} (short : w.length < maxLineLength)
    {line : List Byte} (noSpace : space ∉ line) :
    ∀ word quoted, w ∈ (wordsFrom quotes word quoted line).head? →
      wordsFrom quotes word quoted line = [w] := by
  induction line with
  | nil =>
    intro word quoted first
    simpa [wordsFrom] using first
  | cons b line ih =>
    simp only [List.mem_cons, not_or] at noSpace
    intro word quoted first
    rw [wordsFrom] at first ⊢
    split at first
    · rename_i return_
      rw [if_pos return_]
      exact ih noSpace.2 _ _ first
    · rename_i return_
      rw [if_neg return_]
      rw [if_neg (by simp [Ne.symm noSpace.1])] at first ⊢
      split at first
      · simp only [List.head?_cons, Option.mem_def, Option.some.injEq] at first
        rw [← first, List.length_append, List.length_singleton] at short
        omega
      · rename_i room
        rw [if_neg room]
        exact ih noSpace.2 _ _ first

@[simp] theorem lineTokens_buf (list : List (List Byte)) :
    (lineTokens list).map Token.buf = list := by
  induction list with
  | nil => rfl
  | cons word rest ih =>
    cases rest with
    | nil => rfl
    | cons next rest => simpa [lineTokens] using ih

theorem lineTokens_cons {word : List Byte} {rest : List (List Byte)} (more : rest ≠ []) :
    lineTokens (word :: rest) = ⟨word, tokenNone⟩ :: lineTokens rest := by
  cases rest with
  | nil => exact absurd rfl more
  | cons next rest => rfl

/-! ## Scanning lines -/

/-- What `read_line` makes of a stream from within a token on. -/
def scanRest (flag : Flag) (m : Nat) (state : ReadState) (stream : List Byte) :
    Option (Queue × List Byte) :=
  match scanToken none flag m state stream with
  | none => none
  | some ((t, _), rest) =>
    if t.isEol then some ([t], rest)
    else (scanLine flag m rest).map fun read => (t :: read.1, read.2)

theorem scanLine_eq (flag : Flag) (m : Nat) (stream : List Byte) :
    scanLine flag m stream = scanRest flag m .start stream := by
  rw [scanLine, scanRest]
  split <;> simp_all

/-- One byte of a line is taken where its token has room for it. -/
theorem scanRest_cons {flag : Flag} {m : Nat} {state : ReadState} (c : Byte) (stream : List Byte)
    (room : ¬ state.full none) :
    scanRest flag m state (c :: stream) =
      match tokenStep false flag m state c with
      | .more state => scanRest flag m state stream
      | .stop state flag' =>
        if (Token.mk state.buffer flag').isEol then some ([⟨state.buffer, flag'⟩], stream)
        else (scanRest flag m .start stream).map
          fun read => (⟨state.buffer, flag'⟩ :: read.1, read.2) := by
  rw [scanRest, scanToken_cons _ _ room]
  cases step : tokenStep false flag m state c with
  | more next => simp [step, scanRest]
  | stop next flag' => simp [step, scanLine_eq]

/-- A token that is full is followed by the rest of the line. -/
theorem scanRest_full {flag : Flag} {m : Nat} {state : ReadState} (stream : List Byte)
    (full : state.full none) :
    scanRest flag m state stream =
      (scanRest flag m .start stream).map
        fun read => (⟨state.buffer, tokenNone⟩ :: read.1, read.2) := by
  rw [scanRest, scanToken_full _ full]
  simp [Token.isEol_none, scanLine_eq]

/-- The flags that lines are read with. -/
structure LineFlag (flag : Flag) : Prop where
  /-- No literal is read. -/
  normal : flag.has tokenImap4Literal = false
  /-- Spaces end tokens. -/
  spaces : flag.has tokenEol = false

theorem lineFlag_imap4 : LineFlag tokenImap4 := ⟨by decide, by decide⟩

theorem lineFlag_pop3 : LineFlag tokenPop3 := ⟨by decide, by decide⟩

theorem tokenStep_lf {flag : Flag} (lines : LineFlag flag) (m : Nat) (state : ReadState) :
    tokenStep false flag m state lf = .stop state tokenEol := by
  simp [tokenStep, lines.normal]

theorem tokenStep_cr {flag : Flag} (lines : LineFlag flag) (m : Nat) (state : ReadState) :
    tokenStep false flag m state cr = .more state := by
  simp [tokenStep, lines.normal, show cr ≠ lf by decide]

theorem tokenStep_space {flag : Flag} (lines : LineFlag flag) (m : Nat) {state : ReadState}
    (plain : state.quoted = false) :
    tokenStep false flag m state space = .stop state tokenNone := by
  simp [tokenStep, lines.normal, lines.spaces, plain, show space ≠ lf by decide,
    show space ≠ cr by decide, show space ≠ dquote by decide]

theorem tokenStep_keep {flag : Flag} (lines : LineFlag flag) (m : Nat) (state : ReadState)
    {b : Byte} (noLf : b ≠ lf) (noCr : b ≠ cr) (kept : ¬ (b = space ∧ !state.quoted)) :
    tokenStep false flag m state b = .more ⟨state.buffer ++ [b], state.literal,
      if flag.has tokenImap4 && b == dquote then !state.quoted else state.quoted⟩ := by
  simp only [tokenStep, Bool.false_eq_true, if_false, lines.normal, noLf, noCr, lines.spaces]
  by_cases quote : b = dquote
  · cases flag.has tokenImap4 <;> simp [quote]
  · simp only [quote, if_false, beq_eq_false_iff_ne.mpr quote, Bool.and_false,
      Bool.not_false, Bool.false_eq_true, true_and]
    rw [if_neg (by simpa using kept)]

/-- The rest of a line from within a token on is scanned into the rest of its words. -/
theorem scanRest_line {flag : Flag} (lines : LineFlag flag) (m : Nat) (rest : List Byte)
    {line : List Byte} (whole : lf ∉ line) :
    ∀ state : ReadState, state.buffer.length < maxLineLength →
      scanRest flag m state (line ++ lf :: rest) =
        some (lineTokens (wordsFrom (flag.has tokenImap4) state.buffer state.quoted line), rest) := by
  have start : ReadState.start.buffer.length < maxLineLength := by decide
  induction line with
  | nil =>
    intro state short
    rw [List.nil_append, scanRest_cons _ _ (ReadState.room short), tokenStep_lf lines]
    simp [wordsFrom, lineTokens, Token.isEol_eol]
  | cons b line ih =>
    intro state short
    rw [List.mem_cons, not_or] at whole
    obtain ⟨noLf, whole⟩ := whole
    have noLf : b ≠ lf := fun same => noLf same.symm
    rw [List.cons_append, scanRest_cons _ _ (ReadState.room short), wordsFrom]
    by_cases return_ : b = cr
    · rw [if_pos return_, return_, tokenStep_cr lines]
      exact ih whole state short
    rw [if_neg return_]
    by_cases splits : b = space ∧ !state.quoted
    · obtain ⟨rfl, plain⟩ := splits
      rw [if_pos ⟨rfl, plain⟩, tokenStep_space lines m (by simpa using plain)]
      simp only [Token.isEol_none, Bool.false_eq_true, if_false]
      rw [ih whole .start start, Option.map_some,
        lineTokens_cons (wordsFrom_ne_nil _ _ _ _)]
      rfl
    rw [if_neg splits, tokenStep_keep lines m state noLf return_ splits]
    by_cases fills : maxLineLength ≤ state.buffer.length + 1
    · rw [if_pos fills]
      dsimp only
      rw [scanRest_full _ (by simpa [ReadState.full] using fills), ih whole .start start,
        Option.map_some, lineTokens_cons (wordsFrom_ne_nil _ _ _ _)]
      rfl
    · rw [if_neg fills]
      dsimp only
      exact ih whole _ (by simpa using Nat.lt_of_not_le fills)

/-- A line is scanned into its words. -/
theorem scanLine_line {flag : Flag} (lines : LineFlag flag) (m : Nat) (rest : List Byte)
    {line : List Byte} (whole : lf ∉ line) :
    scanLine flag m (line ++ lf :: rest) =
      some (lineTokens (words (flag.has tokenImap4) line), rest) := by
  rw [scanLine_eq]
  exact scanRest_line lines m rest whole .start (by decide)

/-- A stream without a line feed has no line. -/
theorem scanRest_open {flag : Flag} (lines : LineFlag flag) (m : Nat) {stream : List Byte}
    (open_ : lf ∉ stream) :
    ∀ state : ReadState, state.buffer.length < maxLineLength →
      scanRest flag m state stream = none := by
  have start : ReadState.start.buffer.length < maxLineLength := by decide
  induction stream with
  | nil =>
    intro state short
    simp [scanRest, scanToken, ReadState.room short]
  | cons b stream ih =>
    intro state short
    rw [List.mem_cons, not_or] at open_
    obtain ⟨noLf, open_⟩ := open_
    have noLf : b ≠ lf := fun same => noLf same.symm
    rw [scanRest_cons _ _ (ReadState.room short)]
    by_cases return_ : b = cr
    · rw [return_, tokenStep_cr lines]
      exact ih open_ state short
    by_cases splits : b = space ∧ !state.quoted
    · obtain ⟨rfl, plain⟩ := splits
      rw [tokenStep_space lines m (by simpa using plain)]
      simp [Token.isEol_none, ih open_ .start start]
    rw [tokenStep_keep lines m state noLf return_ splits]
    dsimp only
    by_cases fills : maxLineLength ≤ state.buffer.length + 1
    · rw [scanRest_full _ (by simpa [ReadState.full] using fills), ih open_ .start start]
      rfl
    · exact ih open_ _ (by simpa using Nat.lt_of_not_le fills)

theorem scanLine_open {flag : Flag} (lines : LineFlag flag) (m : Nat) {stream : List Byte}
    (open_ : lf ∉ stream) : scanLine flag m stream = none := by
  rw [scanLine_eq]
  exact scanRest_open lines m open_ .start (by decide)

/-! ## Joining words -/

/-- A line without its carriage returns. -/
def withoutCr (line : List Byte) : List Byte := line.filter (· ≠ cr)

theorem wordsFrom_withoutCr (quotes : Bool) (line word : List Byte) (quoted : Bool) :
    wordsFrom quotes word quoted (withoutCr line) = wordsFrom quotes word quoted line := by
  induction line generalizing word quoted with
  | nil => rfl
  | cons b line ih =>
    by_cases return_ : b = cr
    · have same : withoutCr (b :: line) = withoutCr line := by simp [withoutCr, return_]
      rw [same, ih, wordsFrom, if_pos return_]
    · have same : withoutCr (b :: line) = b :: withoutCr line := by simp [withoutCr, return_]
      rw [same, wordsFrom, wordsFrom, if_neg return_, if_neg return_, ih, ih]

/-- Carriage returns make no difference to the words of a line. -/
theorem words_withoutCr (quotes : Bool) (line : List Byte) :
    words quotes (withoutCr line) = words quotes line :=
  wordsFrom_withoutCr quotes line [] false

theorem words_ne_nil (quotes : Bool) (line : List Byte) : words quotes line ≠ [] :=
  wordsFrom_ne_nil quotes line [] false

theorem not_mem_withoutCr (line : List Byte) : cr ∉ withoutCr line := by
  intro member
  simpa using (List.mem_filter.mp member).2

theorem intercalate_cons {word : List Byte} {rest : List (List Byte)} (more : rest ≠ []) :
    List.intercalate [space] (word :: rest) = word ++ space :: List.intercalate [space] rest := by
  cases rest with
  | nil => exact absurd rfl more
  | cons next rest => simp [List.intercalate]

/-- The words joined by spaces are the line as far as the buffer for a word goes. -/
theorem wordsFrom_take (quotes : Bool) (line : List Byte) (clean : cr ∉ line) (word : List Byte)
    (quoted : Bool) (short : word.length < maxLineLength) :
    (List.intercalate [space] (wordsFrom quotes word quoted line)).take maxLineLength =
      (word ++ line).take maxLineLength := by
  induction line generalizing word quoted with
  | nil => rw [wordsFrom, List.append_nil]; simp [List.intercalate]
  | cons b line ih =>
    have ⟨noCr, clean⟩ := List.ne_and_not_mem_of_not_mem_cons clean
    rw [wordsFrom, if_neg (Ne.symm noCr)]
    split
    · rename_i ended
      have ⟨room, same⟩ : ∃ room, maxLineLength - word.length = room + 1 :=
        ⟨maxLineLength - word.length - 1, by omega⟩
      have others := congrArg (List.take room) (ih clean [] false (by decide))
      rw [List.take_take, List.take_take, Nat.min_eq_left (by omega), List.nil_append] at others
      rw [intercalate_cons (wordsFrom_ne_nil quotes line _ _), List.take_append, List.take_append,
        same, List.take_succ_cons, List.take_succ_cons, others, ended.1]
    · split
      · rename_i full
        have whole : (word ++ [b]).length = maxLineLength := by
          rw [List.length_append, List.length_singleton]
          omega
        have front (more : List Byte) : (word ++ [b] ++ more).take maxLineLength = word ++ [b] :=
          List.take_left' whole
        rw [intercalate_cons (wordsFrom_ne_nil quotes line _ _), front, ← front line,
          List.append_assoc, List.singleton_append]
      · have found := ih clean (word ++ [b]) (if quotes && b == dquote then !quoted else quoted) (by
          rw [List.length_append, List.length_singleton]
          omega)
        rw [found, List.append_assoc, List.singleton_append]

/-- The words of a line that fits, joined by spaces, are the line. -/
theorem words_join (quotes : Bool) {line : List Byte} (fits : line.length < maxLineLength) :
    List.intercalate [space] (words quotes line) = withoutCr line := by
  have shorter : (withoutCr line).length < maxLineLength :=
    Nat.lt_of_le_of_lt (List.length_filter_le _ _) fits
  have taken := wordsFrom_take quotes (withoutCr line) (not_mem_withoutCr line) [] false (by decide)
  rw [wordsFrom_withoutCr, List.nil_append, List.take_of_length_le (Nat.le_of_lt shorter)] at taken
  have length := congrArg List.length taken
  rw [List.length_take] at length
  rw [words, ← taken]
  exact (List.take_of_length_le (by omega)).symm

/-! ## Captured lines -/

/-- With a buffer every byte that is taken is captured, and at least one is taken where there is
room. -/
theorem scanToken_captured {n : Nat} {flag : Flag} {m : Nat} {stream rest : List Byte}
    {read : Token × List Byte} :
    ∀ {state : ReadState}, scanToken (some n) flag m state stream = some (read, rest) →
      read.2 ++ rest = state.literal ++ stream ∧
        (¬ state.full (some n) → state.literal.length < read.2.length) := by
  have taken (state : ReadState) (c : Byte) :
      match tokenStep true flag m state c with
      | .more next => next.literal = state.literal ++ [c]
      | .stop next _ => next.literal = state.literal ++ [c] := by
    simp only [tokenStep, if_true]
    split_ifs <;> rfl
  induction stream with
  | nil =>
    intro state scanned
    by_cases full : state.full (some n) <;> simp [scanToken, full] at scanned
    simp [← scanned.1, ← scanned.2, full]
  | cons c stream ih =>
    intro state scanned
    by_cases full : state.full (some n)
    · rw [scanToken_full _ full] at scanned
      simp only [Option.some.injEq, Prod.mk.injEq] at scanned
      simp [← scanned.1, ← scanned.2, full]
    · have kept := taken state c
      rw [scanToken_cons _ _ full, Option.isSome_some] at scanned
      cases step : tokenStep true flag m state c with
      | more next =>
        rw [step] at scanned kept
        dsimp only at scanned kept
        obtain ⟨whole, longer⟩ := ih scanned
        have grown : state.literal.length < next.literal.length := by rw [kept]; simp
        refine ⟨by rw [whole, kept]; simp, fun _ => ?_⟩
        by_cases last : next.full (some n)
        · rw [scanToken_full _ last] at scanned
          simp only [Option.some.injEq, Prod.mk.injEq] at scanned
          rwa [← scanned.1]
        · exact grown.trans (longer last)
      | stop next flag' =>
        rw [step] at scanned kept
        simp only [Option.some.injEq, Prod.mk.injEq] at scanned
        rw [← scanned.1, ← scanned.2, kept]
        simp

/-- What `read_line` with room for so many bytes makes of a stream: the tokens up to one that ends
the line or fills the room, the bytes captured, and the rest of the stream. -/
def scanCapture (flag : Flag) (m n : Nat) (stream : List Byte) :
    Option ((Queue × List Byte) × List Byte) :=
  match _scanned : scanToken (some n) flag m .start stream with
  | none => none
  | some ((t, literal), rest) =>
    if _ends : t.isEol ∨ n ≤ literal.length then some (([t], literal), rest)
    else (scanCapture flag m (n - literal.length) rest).map
      fun read => ((t :: read.1.1, literal ++ read.1.2), read.2)
termination_by n
decreasing_by
  rw [not_or, not_le] at _ends
  have room : ¬ ReadState.start.full (some n) := by
    simp [ReadState.full, ReadState.start, maxLineLength]
    omega
  have some_ := (scanToken_captured _scanned).2 room
  simp only [ReadState.start, List.length_nil] at some_
  omega

/-- The bytes captured and the rest are the stream. -/
theorem scanCapture_whole {flag : Flag} {m n : Nat} {stream rest : List Byte}
    {read : Queue × List Byte} (scanned : scanCapture flag m n stream = some (read, rest)) :
    read.2 ++ rest = stream := by
  induction n using Nat.strong_induction_on generalizing stream read rest with
  | _ n ih =>
    rw [scanCapture] at scanned
    split at scanned
    · cases scanned
    · rename_i t literal left token
      have whole := (scanToken_captured token).1
      simp only [ReadState.start, List.nil_append] at whole
      split at scanned
      · simp only [Option.some.injEq, Prod.mk.injEq] at scanned
        rw [← scanned.1, ← scanned.2]
        exact whole
      · rename_i goes
        rw [not_or, not_le] at goes
        have room : ¬ ReadState.start.full (some n) := by
          simp [ReadState.full, ReadState.start, maxLineLength]
          omega
        have some_ := (scanToken_captured token).2 room
        simp only [ReadState.start, List.length_nil] at some_
        cases others : scanCapture flag m (n - literal.length) left with
        | none => simp [others] at scanned
        | some next =>
          obtain ⟨read', rest'⟩ := next
          simp only [others, Option.map_some, Option.some.injEq, Prod.mk.injEq] at scanned
          have left' := ih (n - literal.length) (by omega) others
          rw [← scanned.1, ← scanned.2, List.append_assoc, left', whole]

/-- What `read_line` with room for so many bytes makes of a stream from within a token on. -/
def scanCaptureRest (flag : Flag) (m n : Nat) (state : ReadState) (stream : List Byte) :
    Option ((Queue × List Byte) × List Byte) :=
  match scanToken (some n) flag m state stream with
  | none => none
  | some ((t, literal), rest) =>
    if t.isEol ∨ n ≤ literal.length then some (([t], literal), rest)
    else (scanCapture flag m (n - literal.length) rest).map
      fun read => ((t :: read.1.1, literal ++ read.1.2), read.2)

theorem scanCapture_eq (flag : Flag) (m n : Nat) (stream : List Byte) :
    scanCapture flag m n stream = scanCaptureRest flag m n .start stream := by
  rw [scanCapture, scanCaptureRest]
  split <;> simp_all

theorem tokenStep_captured (flag : Flag) (m : Nat) (state : ReadState) (c : Byte) :
    tokenStep true flag m state c =
      tokenStep false flag m { state with literal := state.literal ++ [c] } c := by
  simp [tokenStep]

/-- One byte of a captured line is taken where there is room for it. -/
theorem scanCaptureRest_cons {flag : Flag} {m n : Nat} {state : ReadState} (c : Byte)
    (stream : List Byte) (room : ¬ state.full (some n)) :
    scanCaptureRest flag m n state (c :: stream) =
      match tokenStep false flag m { state with literal := state.literal ++ [c] } c with
      | .more state => scanCaptureRest flag m n state stream
      | .stop state flag' =>
        if (Token.mk state.buffer flag').isEol ∨ n ≤ state.literal.length then
          some (([⟨state.buffer, flag'⟩], state.literal), stream)
        else (scanCaptureRest flag m (n - state.literal.length) .start stream).map
          fun read => ((⟨state.buffer, flag'⟩ :: read.1.1, state.literal ++ read.1.2), read.2) := by
  rw [scanCaptureRest, scanToken_cons _ _ room, Option.isSome_some, tokenStep_captured]
  cases step : tokenStep false flag m { state with literal := state.literal ++ [c] } c with
  | more next => simp [scanCaptureRest]
  | stop next flag' => simp [scanCapture_eq]

/-- A token that is full is followed by the rest of the captured line. -/
theorem scanCaptureRest_full {flag : Flag} {m n : Nat} {state : ReadState} (stream : List Byte)
    (full : state.full (some n)) (room : state.literal.length < n) :
    scanCaptureRest flag m n state stream =
      (scanCaptureRest flag m (n - state.literal.length) .start stream).map
        fun read => ((⟨state.buffer, tokenNone⟩ :: read.1.1, state.literal ++ read.1.2), read.2) := by
  rw [scanCaptureRest, scanToken_full _ full]
  simp [Token.isEol_none, scanCapture_eq, Nat.not_le.mpr room]

theorem ReadState.roomFor {state : ReadState} {n : Nat} (short : state.buffer.length < maxLineLength)
    (left : state.literal.length < n) : ¬ state.full (some n) := by
  simp [full, left, short]

/-- A line that fits the room left is captured from within a token on, and scanned into the rest of
its words. -/
theorem scanCaptureRest_line {flag : Flag} (lines : LineFlag flag) (m : Nat) (rest : List Byte)
    {line : List Byte} (whole : lf ∉ line) :
    ∀ (n : Nat) (state : ReadState), state.buffer.length < maxLineLength →
      state.literal.length + line.length < n →
      scanCaptureRest flag m n state (line ++ lf :: rest) =
        some ((lineTokens (wordsFrom (flag.has tokenImap4) state.buffer state.quoted line),
          state.literal ++ line ++ [lf]), rest) := by
  have start : ReadState.start.buffer.length < maxLineLength := by decide
  induction line with
  | nil =>
    intro n state short room
    rw [List.nil_append, scanCaptureRest_cons _ _ (ReadState.roomFor short (by simpa using room)),
      tokenStep_lf lines]
    simp [wordsFrom, lineTokens, Token.isEol_eol]
  | cons b line ih =>
    intro n state short room
    rw [List.mem_cons, not_or] at whole
    obtain ⟨noLf, whole⟩ := whole
    have noLf : b ≠ lf := fun same => noLf same.symm
    simp only [List.length_cons] at room
    have longer : (state.literal ++ [b]).length = state.literal.length + 1 := by simp
    have next (front : List Byte) (n : Nat) (left : front.length + line.length < n) (t : Token)
        (more : t.flag = tokenNone) :
        (scanCaptureRest flag m (n - front.length) .start (line ++ lf :: rest)).map
          (fun read => ((t :: read.1.1, front ++ read.1.2), read.2)) =
        some ((lineTokens (t.buf :: words (flag.has tokenImap4) line),
          front ++ line ++ [lf]), rest) := by
      obtain ⟨buf, flag'⟩ := t
      obtain rfl : flag' = tokenNone := more
      rw [ih whole _ .start start (by simp only [ReadState.start, List.length_nil]; omega),
        Option.map_some, lineTokens_cons (by exact wordsFrom_ne_nil _ _ _ _)]
      simp [ReadState.start, words]
    rw [List.cons_append, scanCaptureRest_cons _ _ (ReadState.roomFor short (by omega)), wordsFrom]
    by_cases return_ : b = cr
    · subst return_
      rw [if_pos rfl, tokenStep_cr lines]
      dsimp only
      rw [ih whole n ⟨state.buffer, state.literal ++ [cr], state.quoted⟩ short
        (by simp only [longer]; omega)]
      simp
    rw [if_neg return_]
    by_cases splits : b = space ∧ !state.quoted
    · obtain ⟨rfl, plain⟩ := splits
      rw [if_pos ⟨rfl, plain⟩, tokenStep_space lines m (by simpa using plain)]
      simp only [Token.isEol_none, Bool.false_eq_true, false_or]
      rw [if_neg (by rw [longer]; omega), next _ _ (by rw [longer]; omega) _ rfl]
      simp [words]
    rw [if_neg splits, tokenStep_keep lines m ⟨state.buffer, state.literal ++ [b], state.quoted⟩ noLf
      return_ splits]
    by_cases fills : maxLineLength ≤ state.buffer.length + 1
    · rw [if_pos fills]
      dsimp only
      rw [scanCaptureRest_full _ (by simp [ReadState.full, fills]) (by simp only [longer]; omega),
        next _ _ (by simp only [longer]; omega) _ rfl]
      simp [words]
    · rw [if_neg fills]
      dsimp only
      rw [ih whole _ _ (by simpa using Nat.lt_of_not_le fills) (by simp only [longer]; omega)]
      simp

/-! ## Lines that do not fit the room -/

/-- Where the room is filled before the line ends, it holds the bytes that were taken. -/
theorem scanCaptureRest_cut {flag : Flag} (lines : LineFlag flag) (m : Nat) (rest : List Byte)
    {front : List Byte} (open_ : lf ∉ front) :
    ∀ (n : Nat) (state : ReadState), state.buffer.length < maxLineLength →
      state.literal.length + front.length = n →
      ∃ q, scanCaptureRest flag m n state (front ++ rest) =
        some ((q, state.literal ++ front), rest) ∧ q ≠ [] := by
  have start : ReadState.start.buffer.length < maxLineLength := by decide
  have filled {n : Nat} {state : ReadState} (room : state.literal.length = n) :
      scanCaptureRest flag m n state rest =
        some (([⟨state.buffer, tokenNone⟩], state.literal), rest) := by
    have full : state.full (some n) := by simp [ReadState.full, ← room]
    rw [scanCaptureRest, scanToken_full _ full]
    simp [← room]
  induction front with
  | nil =>
    intro n state short room
    exact ⟨[⟨state.buffer, tokenNone⟩], by simpa using filled room, by simp⟩
  | cons b front ih =>
    intro n state short room
    rw [List.mem_cons, not_or] at open_
    obtain ⟨noLf, open_⟩ := open_
    have noLf : b ≠ lf := fun same => noLf same.symm
    simp only [List.length_cons] at room
    have longer : (state.literal ++ [b]).length = state.literal.length + 1 := by simp
    -- a token that ends before the room is filled is followed by others
    have again (t : Token) (left : 0 < front.length) :
        ∃ q, (scanCaptureRest flag m (n - (state.literal.length + 1)) .start (front ++ rest)).map
          (fun read => ((t :: read.1.1, state.literal ++ [b] ++ read.1.2), read.2)) =
            some ((q, state.literal ++ b :: front), rest) ∧ q ≠ [] := by
      obtain ⟨q, scanned, _⟩ := ih open_ (n - (state.literal.length + 1)) .start start
        (by simp only [ReadState.start, List.length_nil]; omega)
      exact ⟨t :: q, by rw [scanned]; simp [ReadState.start], by simp⟩
    rw [List.cons_append, scanCaptureRest_cons _ _ (ReadState.roomFor short (by omega))]
    by_cases return_ : b = cr
    · subst return_
      rw [tokenStep_cr lines]
      obtain ⟨q, scanned, some_⟩ := ih open_ n ⟨state.buffer, state.literal ++ [cr], state.quoted⟩
        short (by simp only [longer]; omega)
      exact ⟨q, by simpa using scanned, some_⟩
    by_cases splits : b = space ∧ !state.quoted
    · obtain ⟨rfl, plain⟩ := splits
      rw [tokenStep_space lines m (by simpa using plain)]
      simp only [Token.isEol_none, Bool.false_eq_true, false_or, longer]
      rcases Nat.eq_zero_or_pos front.length with none_ | left
      · obtain rfl := List.length_eq_zero_iff.mp none_
        rw [if_pos (by omega)]
        exact ⟨[⟨state.buffer, tokenNone⟩], by simp, by simp⟩
      · rw [if_neg (by omega)]
        exact again _ left
    rw [tokenStep_keep lines m ⟨state.buffer, state.literal ++ [b], state.quoted⟩ noLf return_
      splits]
    dsimp only
    by_cases fills : maxLineLength ≤ state.buffer.length + 1
    · rcases Nat.eq_zero_or_pos front.length with none_ | left
      · obtain rfl := List.length_eq_zero_iff.mp none_
        rw [List.nil_append, filled (by simp only [longer]; omega)]
        exact ⟨_, rfl, by simp⟩
      · rw [scanCaptureRest_full _ (by simp [ReadState.full, fills])
          (by simp only [longer]; omega)]
        simp only [longer]
        exact again _ left
    · obtain ⟨q, scanned, some_⟩ := ih open_ n ⟨state.buffer ++ [b], state.literal ++ [b],
        if flag.has tokenImap4 && b == dquote then !state.quoted else state.quoted⟩
        (by simpa using Nat.lt_of_not_le fills) (by simp only [longer]; omega)
      exact ⟨q, by simpa using scanned, some_⟩

/-! ## Reading captured lines -/

section Streamed

variable {σ ε : Type} {handler : Handler IoSig σ ε} {at_ : List Byte → σ → Prop}
  {ended : σ → Prop} (streamed : Streamed handler at_ ended)
include streamed

/-- The loop of `read_line` with a buffer scans the rest of a line. -/
theorem readLine_captured_iterate {flag : Flag} (lines : LineFlag flag) (m n fuel rounds : Nat) :
    ∀ (front : Queue) (captured stream : List Byte) (s : σ), at_ stream s →
      stream.length < rounds → stream.length < fuel → captured.length < n →
      Yields at_ ended ((scanCapture flag m (n - captured.length) stream).map
          fun read => ((front ++ read.1.1, captured ++ read.1.2), read.2))
        (iterate (fun at_ s => (readLineRound (some n) flag m at_).run handler fuel s) rounds
          (front, captured) s) := by
  induction rounds with
  | zero => exact fun _ _ _ _ _ turns => absurd turns (Nat.not_lt_zero _)
  | succ rounds ih =>
    intro front captured stream s here turns enough room
    obtain ⟨after, run, left⟩ := tokenRead_streamed streamed (some (n - captured.length)) flag m
      here enough
    rw [iterate, readLineRound, Option.map_some, run_bind, run, scanCapture]
    split
    · rename_i scanned
      rw [scanned] at left ⊢
      exact ⟨after, rfl, left⟩
    · rename_i t literal rest scanned
      rw [scanned] at left ⊢
      dsimp only at left
      have positive : ¬ ReadState.start.full (some (n - captured.length)) :=
        ReadState.roomFor (by decide) (by simp only [ReadState.start, List.length_nil]; omega)
      obtain ⟨whole, some_⟩ := scanToken_captured scanned
      replace some_ := some_ positive
      replace whole := congrArg List.length whole
      simp only [ReadState.start, List.length_nil, List.length_append, Nat.zero_add] at some_ whole
      by_cases last : t.isEol ∨ n - captured.length ≤ literal.length
      · rw [dif_pos last]
        refine ⟨after, ?_, left⟩
        rcases last with ends | filled
        · simp [ends]
        · simp [show ¬ captured.length + literal.length < n by omega]
      · rw [dif_neg last]
        rw [not_or, not_le] at last
        have more : captured.length + literal.length < n := by omega
        obtain ⟨final, others, finished⟩ := ih (front ++ [t]) (captured ++ literal) rest after left
          (by omega) (by omega) (by rw [List.length_append]; omega)
        have same : n - (captured ++ literal).length = n - captured.length - literal.length := by
          rw [List.length_append]; omega
        rw [same] at others finished
        refine ⟨final, ?_, ?_⟩
        · simpa [lines.normal, last.1, more, Function.comp_def] using others
        · cases line : scanCapture flag m (n - captured.length - literal.length) rest with
          | none => simpa [line] using finished
          | some read => simpa [line] using finished

/-- `read_line` with a buffer captures a line. -/
theorem readLine_captured {flag : Flag} (lines : LineFlag flag) (m : Nat) {n fuel : Nat}
    {stream : List Byte} {s : σ} (here : at_ stream s) (enough : stream.length < fuel)
    (room : 0 < n) :
    Yields at_ ended (scanCapture flag m n stream) ((readLine (some n) flag m).run handler fuel s) := by
  have all := readLine_captured_iterate streamed lines m n fuel fuel [] [] stream s here enough
    enough room
  rw [readLine, run_loop]
  simpa using all

end Streamed

end Perdition
