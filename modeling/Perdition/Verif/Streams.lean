import Perdition.Verif.Writers
import Perdition.World

/-!
# Reading from a stream

However a peer's bytes are cut into chunks, reading takes them one after another. The tokeniser is
therefore a function of the stream of bytes, `scanToken`, and a line is a list of tokens scanned one
after another, `ScansLine`. The stream ends at the first read that returns no bytes.
-/
namespace Perdition

open Lib Program

/-! ## The stream of a channel -/

namespace Channel

/-- The bytes a channel delivers before a read fails or finds the end. -/
def stream (ch : Channel) : List Byte :=
  ch.unread ++ (ch.conn.reads.takeWhile (!·.isEmpty)).flatten

/-- The channel of a client that sends these chunks. -/
def reading (reads : List (List Byte)) : Channel :=
  ⟨⟨⟨.client, 0, 0⟩, .fd, reads, [], []⟩, [], ⟨.client, 0, 0⟩, []⟩

/-- A client that sends one chunk sends its bytes. -/
theorem stream_reading {chunk : List Byte} (some_ : chunk ≠ []) :
    (reading [chunk]).stream = chunk := by
  simp [reading, stream, some_]

/-- A channel with nothing left to read. -/
def drained (ch : Channel) : Channel :=
  { ch with
    conn := { ch.conn with reads := [] }
    unread := []
    source := ch.conn.id }

/-- What follows a read depends on the stream and on what reading leaves alone. -/
structure Reaches (before after : Channel) (rest : List Byte) : Prop where
  /-- The bytes that are left. -/
  stream : after.stream = rest
  /-- Nothing else happened. -/
  drained : after.drained = before.drained

/-- Nothing was read. -/
theorem Reaches.refl (ch : Channel) : ch.Reaches ch ch.stream := ⟨rfl, rfl⟩

/-- Two reads in a row. -/
theorem Reaches.trans {first second third : Channel} {middle rest : List Byte}
    (start : first.Reaches second middle) (finish : second.Reaches third rest) :
    first.Reaches third rest :=
  ⟨finish.stream, finish.drained.trans start.drained⟩

/-- Reading leaves the results of writes alone. -/
theorem Reaches.writes {before after : Channel} {rest : List Byte}
    (reached : before.Reaches after rest) : after.conn.writes = before.conn.writes := by
  have same := congrArg (fun ch : Channel => ch.conn.writes) reached.drained
  exact same

/-- Reading leaves the result of the next write alone. -/
theorem Reaches.write {before after : Channel} {rest : List Byte}
    (reached : before.Reaches after rest) : after.conn.write.1 = before.conn.write.1 := by
  rw [Connection.write, Connection.write, reached.writes]
  cases before.conn.writes <;> rfl

/-- Reading leaves the type of the connection alone. -/
theorem Reaches.type {before after : Channel} {rest : List Byte}
    (reached : before.Reaches after rest) : after.conn.type = before.conn.type := by
  have same := congrArg (fun ch : Channel => ch.conn.type) reached.drained
  exact same

/-- The next byte of a stream that has not ended. -/
theorem nextByte_cons {ch : Channel} {b : Byte} {rest : List Byte}
    (left : ch.stream = b :: rest) :
    ch.nextByte.1 = some b ∧ ch.Reaches ch.nextByte.2 rest := by
  obtain ⟨⟨id, type, reads, writes, handshakes⟩, unread, source, stale⟩ := ch
  cases unread with
  | cons c unread =>
    simp only [stream, List.cons_append, List.cons.injEq] at left
    obtain ⟨rfl, rfl⟩ := left
    exact ⟨rfl, rfl, rfl⟩
  | nil =>
    rcases reads with _ | ⟨_ | ⟨c, chunk⟩, reads⟩
    · simp [stream] at left
    · simp [stream] at left
    · simp only [stream, List.nil_append, List.isEmpty_cons, Bool.not_false,
        List.takeWhile_cons_of_pos, List.flatten_cons, List.cons_append, List.cons.injEq] at left
      obtain ⟨rfl, rfl⟩ := left
      by_cases small : (c :: chunk).length ≤ maxChunk
      · simp only [nextByte, Connection.read, if_pos small]
        exact ⟨trivial, rfl, rfl⟩
      · -- a chunk longer than one read returns leaves its end for the next read
        have cut : (c :: chunk).take maxChunk = c :: chunk.take (maxChunk - 1) := rfl
        have more : (chunk.drop (maxChunk - 1)).isEmpty = false := by
          simp only [List.isEmpty_eq_false_iff, ne_eq, List.drop_eq_nil_iff, not_le]
          simp only [List.length_cons, maxChunk, maxLineLength] at small ⊢
          omega
        simp only [nextByte, Connection.read, if_neg small, cut]
        refine ⟨trivial, ?_, rfl⟩
        change chunk.take (maxChunk - 1) ++
          ((chunk.drop (maxChunk - 1) :: reads).takeWhile (!·.isEmpty)).flatten = _
        rw [List.takeWhile_cons_of_pos (by simp [more]), List.flatten_cons, ← List.append_assoc,
          List.take_append_drop]

/-- No byte comes from a stream that has ended. -/
theorem nextByte_nil {ch : Channel} (left : ch.stream = []) :
    ch.nextByte.1 = none ∧ ch.nextByte.2.drained = ch.drained := by
  obtain ⟨⟨id, type, reads, writes, handshakes⟩, unread, source, stale⟩ := ch
  simp only [stream, List.append_eq_nil_iff] at left
  obtain ⟨rfl, left⟩ := left
  rcases reads with _ | ⟨_ | ⟨c, chunk⟩, reads⟩
  · exact ⟨rfl, rfl⟩
  · exact ⟨rfl, rfl⟩
  · simp at left

end Channel

/-- A channel after a message was written on it, all of it or not. -/
def Channel.written (ch : Channel) : Channel := { ch with conn := ch.conn.write.2 }

/-- Writing takes nothing from the stream. -/
@[simp] theorem Channel.stream_written (ch : Channel) : ch.written.stream = ch.stream := by
  obtain ⟨⟨id, type, reads, writes, handshakes⟩, unread, source, stale⟩ := ch
  cases writes <;> rfl

/-- A message is sent, or it is not. -/
theorem run_send (content : List Byte) (fuel : Nat) (ch : Channel) :
    (send content).run Channel.step fuel ch =
      .done (if ch.conn.write.1 then 0 else -1) ch.written := by
  change ((if ch.conn.write.1 = true then pure 0 else pure (-1) : Dialogue Int).run Channel.step
    fuel ch.written) = _
  split <;> rfl

/-! ## Tokens -/

/-- What `token_read` makes of a stream: the token and the captured bytes, and the rest of the
stream. -/
def scanToken (capture : Option Nat) (flag : Flag) (m : Nat) (state : ReadState) :
    List Byte → Option ((Token × List Byte) × List Byte)
  | [] =>
    if state.full capture then some ((⟨state.buffer, tokenNone⟩, state.literal), []) else none
  | c :: stream =>
    if state.full capture then some ((⟨state.buffer, tokenNone⟩, state.literal), c :: stream)
    else match tokenStep capture.isSome flag m state c with
      | .more state => scanToken capture flag m state stream
      | .stop state flag => some ((⟨state.buffer, flag⟩, state.literal), stream)

/-- The token ends where there is no room for another byte. -/
theorem scanToken_full {capture : Option Nat} {flag : Flag} {m : Nat} {state : ReadState}
    (stream : List Byte) (full : state.full capture) :
    scanToken capture flag m state stream =
      some ((⟨state.buffer, tokenNone⟩, state.literal), stream) := by
  cases stream <;> simp [scanToken, full]

/-- One byte of a token is taken where there is room for it. -/
theorem scanToken_cons {capture : Option Nat} {flag : Flag} {m : Nat} {state : ReadState}
    (c : Byte) (stream : List Byte) (room : ¬ state.full capture) :
    scanToken capture flag m state (c :: stream) =
      match tokenStep capture.isSome flag m state c with
      | .more state => scanToken capture flag m state stream
      | .stop state flag => some ((⟨state.buffer, flag⟩, state.literal), stream) := by
  rw [scanToken, if_neg room]

/-- A token that was scanned left a rest that is no longer. -/
theorem scanToken_length {capture : Option Nat} {flag : Flag} {m : Nat} {state : ReadState}
    {stream rest : List Byte} {read : Token × List Byte}
    (scanned : scanToken capture flag m state stream = some (read, rest)) :
    rest.length ≤ stream.length := by
  induction stream generalizing state with
  | nil =>
    by_cases full : state.full capture <;> simp [scanToken, full] at scanned
    simp [← scanned.2]
  | cons c stream ih =>
    by_cases full : state.full capture
    · rw [scanToken_full _ full] at scanned
      simp only [Option.some.injEq, Prod.mk.injEq] at scanned
      simp [← scanned.2]
    · rw [scanToken_cons _ _ full] at scanned
      cases step : tokenStep capture.isSome flag m state c with
      | more state' =>
        rw [step] at scanned
        exact (ih scanned).trans (Nat.le_succ _)
      | stop state' flag' =>
        rw [step] at scanned
        simp only [Option.some.injEq, Prod.mk.injEq] at scanned
        simp [← scanned.2]

/-! ## Handlers that deliver a stream -/

/-- A handler delivers a stream: states are at what is left of it, and after its end. -/
structure Streamed {σ ε : Type} (handler : Handler IoSig σ ε) (at_ : List Byte → σ → Prop)
    (ended : σ → Prop) : Prop where
  /-- The next byte is the first of those that are left. -/
  cons : ∀ b rest s, at_ (b :: rest) s → ∃ s', handler .nextByte s = .done (some b) s' ∧ at_ rest s'
  /-- No byte comes after the last one. -/
  nil : ∀ s, at_ [] s → ∃ s', handler .nextByte s = .done none s' ∧ ended s'

/-- A run returned what reading makes of a stream, and is at the rest of it. -/
def Yields {σ ε α : Type} (at_ : List Byte → σ → Prop) (ended : σ → Prop)
    (scanned : Option (α × List Byte)) (outcome : Outcome σ ε (Option α)) : Prop :=
  ∃ after, outcome = .done (scanned.map Prod.fst) after ∧
    match scanned with
    | some (_, rest) => at_ rest after
    | none => ended after

section Streamed

variable {σ ε : Type} {handler : Handler IoSig σ ε} {at_ : List Byte → σ → Prop}
  {ended : σ → Prop} (streamed : Streamed handler at_ ended)
include streamed

/-- The loop of `token_read` scans the stream from any of its states. -/
theorem tokenRead_iterate (capture : Option Nat) (flag : Flag) (m fuel : Nat)
    (stream : List Byte) :
    ∀ (rounds : Nat) (state : ReadState) (s : σ), at_ stream s → stream.length < rounds →
      Yields at_ ended (scanToken capture flag m state stream)
        (iterate (fun at_ s => (tokenReadRound capture flag m at_).run handler fuel s)
          rounds state s) := by
  have take (rest : Option Byte → Dialogue (ReadState ⊕ Option (Token × List Byte))) (s : σ) :
      (nextByte >>= rest).run handler fuel s = (handler .nextByte s).next fun c s' =>
        (rest c).run handler fuel s' := rfl
  induction stream with
  | nil =>
    intro rounds state s here turns
    obtain ⟨rounds, rfl⟩ := Nat.exists_eq_add_one_of_ne_zero (Nat.ne_of_gt turns)
    rw [iterate, tokenReadRound]
    by_cases full : state.full capture
    · rw [scanToken_full _ full, if_pos full]
      exact ⟨s, rfl, here⟩
    · obtain ⟨after, step, last⟩ := streamed.nil s here
      rw [if_neg full, take, step, scanToken, if_neg full]
      exact ⟨after, rfl, last⟩
  | cons c stream ih =>
    intro rounds state s here turns
    obtain ⟨rounds, rfl⟩ := Nat.exists_eq_add_one_of_ne_zero
      (Nat.ne_of_gt (Nat.zero_lt_of_lt turns))
    rw [iterate, tokenReadRound]
    by_cases full : state.full capture
    · rw [scanToken_full _ full, if_pos full]
      exact ⟨s, rfl, here⟩
    · obtain ⟨after, step, left⟩ := streamed.cons c stream s here
      rw [if_neg full, take, step, scanToken_cons _ _ full]
      dsimp only [Outcome.next]
      cases next : tokenStep capture.isSome flag m state c with
      | more state' => exact ih rounds state' after left (Nat.lt_of_succ_lt_succ turns)
      | stop state' flag' => exact ⟨after, rfl, left⟩

/-- `token_read` scans the stream. -/
theorem tokenRead_streamed (capture : Option Nat) (flag : Flag) (m : Nat) {fuel : Nat}
    {stream : List Byte} {s : σ} (here : at_ stream s) (enough : stream.length < fuel) :
    Yields at_ ended (scanToken capture flag m .start stream)
      ((tokenRead capture flag m).run handler fuel s) :=
  tokenRead_iterate streamed capture flag m fuel stream fuel .start s here enough

end Streamed

/-- A channel delivers its stream, however it is cut into chunks. -/
theorem Channel.streamed (ch : Channel) :
    Streamed Channel.step (fun rest after => ch.Reaches after rest)
      fun after => after.drained = ch.drained where
  cons b rest s here := by
    obtain ⟨taken, reached⟩ := Channel.nextByte_cons here.stream
    refine ⟨s.nextByte.2, ?_, reached.stream, reached.drained.trans here.drained⟩
    change Outcome.done s.nextByte.1 s.nextByte.2 = _
    rw [taken]
    rfl
  nil s here := by
    obtain ⟨none_, drained⟩ := Channel.nextByte_nil here.stream
    refine ⟨s.nextByte.2, ?_, drained.trans here.drained⟩
    change Outcome.done s.nextByte.1 s.nextByte.2 = _
    rw [none_]
    rfl

/-- Without a buffer no byte is captured. -/
theorem tokenStep_literal (flag : Flag) (m : Nat) (state : ReadState) (c : Byte) :
    match tokenStep false flag m state c with
    | .more next => next.literal = state.literal
    | .stop next _ => next.literal = state.literal := by
  simp only [tokenStep, Bool.false_eq_true, if_false]
  split_ifs <;> rfl

/-- Without a buffer nothing is captured. -/
theorem scanToken_literal {flag : Flag} {m : Nat} {state : ReadState} {stream rest : List Byte}
    {read : Token × List Byte} (scanned : scanToken none flag m state stream = some (read, rest)) :
    read.2 = state.literal := by
  induction stream generalizing state with
  | nil =>
    by_cases full : state.full none <;> simp [scanToken, full] at scanned
    simp [← scanned.1]
  | cons c stream ih =>
    by_cases full : state.full none
    · rw [scanToken_full _ full] at scanned
      simp only [Option.some.injEq, Prod.mk.injEq] at scanned
      simp [← scanned.1]
    · have kept := tokenStep_literal flag m state c
      rw [scanToken_cons _ _ full] at scanned
      cases step : tokenStep false flag m state c with
      | more state' =>
        rw [Option.isSome_none, step] at scanned
        rw [step] at kept
        exact (ih scanned).trans kept
      | stop state' flag' =>
        rw [Option.isSome_none, step] at scanned
        rw [step] at kept
        simp only [Option.some.injEq, Prod.mk.injEq] at scanned
        rw [← scanned.1]
        exact kept

/-- A token that has room takes at least one byte. -/
theorem scanToken_progress {capture : Option Nat} (room : ¬ ReadState.start.full capture)
    {flag : Flag} {m : Nat} {stream rest : List Byte} {read : Token × List Byte}
    (scanned : scanToken capture flag m .start stream = some (read, rest)) :
    rest.length < stream.length := by
  cases stream with
  | nil => simp [scanToken, room] at scanned
  | cons c stream =>
    rw [scanToken_cons _ _ room] at scanned
    split at scanned
    · exact Nat.lt_succ_of_le (scanToken_length scanned)
    · simp only [Option.some.injEq, Prod.mk.injEq] at scanned
      rw [← scanned.2]
      exact Nat.lt_succ_self _

/-- A token takes at least one byte from the stream. -/
theorem scanToken_start {flag : Flag} {m : Nat} {stream rest : List Byte}
    {read : Token × List Byte} (scanned : scanToken none flag m .start stream = some (read, rest)) :
    rest.length < stream.length :=
  scanToken_progress (by decide) scanned

/-! ## Lines -/

/-- What `read_line` makes of a stream: the tokens up to one that ends the line, and the rest of the
stream. -/
def scanLine (flag : Flag) (m : Nat) (stream : List Byte) : Option (Queue × List Byte) :=
  match _scanned : scanToken none flag m .start stream with
  | none => none
  | some ((t, _), rest) =>
    if t.isEol then some ([t], rest)
    else (scanLine flag m rest).map fun read => (t :: read.1, read.2)
termination_by stream.length
decreasing_by exact scanToken_start _scanned

/-- A stream that ends within a token has no line. -/
theorem scanLine_none {flag : Flag} {m : Nat} {stream : List Byte}
    (scanned : scanToken none flag m .start stream = none) : scanLine flag m stream = none := by
  rw [scanLine]
  split <;> simp_all

/-- A token that ends the line is its last one. -/
theorem scanLine_last {flag : Flag} {m : Nat} {stream rest : List Byte} {t : Token}
    {literal : List Byte}
    (scanned : scanToken none flag m .start stream = some ((t, literal), rest)) (ends : t.isEol) :
    scanLine flag m stream = some ([t], rest) := by
  rw [scanLine]
  split <;> simp_all

/-- A token that does not end the line is followed by the others. -/
theorem scanLine_more {flag : Flag} {m : Nat} {stream rest : List Byte} {t : Token}
    {literal : List Byte}
    (scanned : scanToken none flag m .start stream = some ((t, literal), rest))
    (goes : ¬ t.isEol) :
    scanLine flag m stream =
      (scanLine flag m rest).map fun read => (t :: read.1, read.2) := by
  rw [scanLine]
  split <;> simp_all

section Streamed

variable {σ ε : Type} {handler : Handler IoSig σ ε} {at_ : List Byte → σ → Prop}
  {ended : σ → Prop} (streamed : Streamed handler at_ ended)
include streamed

/-- The loop of `read_line` scans the rest of a line. -/
theorem readLine_iterate {flag : Flag} (normal : flag.has tokenImap4Literal = false)
    (m fuel rounds : Nat) :
    ∀ (front : Queue) (stream : List Byte) (s : σ), at_ stream s → stream.length < rounds →
      stream.length < fuel →
      Yields at_ ended ((scanLine flag m stream).map fun read => ((front ++ read.1, []), read.2))
        (iterate (fun at_ s => (readLineRound none flag m at_).run handler fuel s) rounds
          (front, []) s) := by
  induction rounds with
  | zero => exact fun _ _ _ _ turns => absurd turns (Nat.not_lt_zero _)
  | succ rounds ih =>
    intro front stream s here turns enough
    obtain ⟨after, run, left⟩ := tokenRead_streamed streamed none flag m here enough
    rw [iterate, readLineRound, Option.map_none, run_bind, run]
    cases scanned : scanToken none flag m .start stream with
    | none =>
      rw [scanned] at left
      rw [scanLine_none scanned]
      exact ⟨after, rfl, left⟩
    | some read =>
      obtain ⟨⟨t, literal⟩, rest⟩ := read
      obtain rfl : literal = [] := scanToken_literal scanned
      rw [scanned] at left
      cases ends : t.isEol with
      | true =>
        rw [scanLine_last scanned ends]
        refine ⟨after, ?_, left⟩
        simp [ends]
      | false =>
        have shorter := scanToken_start scanned
        obtain ⟨last, others, finished⟩ := ih (front ++ [t]) rest after left (by omega) (by omega)
        rw [scanLine_more scanned (by simp [ends])]
        refine ⟨last, ?_, ?_⟩
        · simpa [normal, ends, Function.comp_def] using others
        · cases line : scanLine flag m rest with
          | none => simpa [line] using finished
          | some read' => simpa [line] using finished

/-- `read_line` scans a line. -/
theorem readLine_streamed {flag : Flag} (normal : flag.has tokenImap4Literal = false) (m : Nat)
    {fuel : Nat} {stream : List Byte} {s : σ} (here : at_ stream s)
    (enough : stream.length < fuel) :
    Yields at_ ended ((scanLine flag m stream).map fun read => ((read.1, []), read.2))
      ((readLine none flag m).run handler fuel s) :=
  readLine_iterate streamed normal m fuel fuel [] stream s here enough enough

end Streamed

/-! ## Tokens of an IMAP command -/

/-- The tokeniser keeps these bytes in the token from a state of `quoted` on. -/
def Kept : Bool → List Byte → Prop
  | _, [] => True
  | quoted, b :: rest =>
    b ≠ lf ∧ b ≠ cr ∧ (b = space → quoted) ∧ Kept (quoted ^^ b == dquote) rest

/-- The state of `quoted` after these bytes. -/
def quotedAfter (quoted : Bool) (content : List Byte) : Bool :=
  content.foldl (fun quoted b => quoted ^^ b == dquote) quoted

section scan

variable {m : Nat} {rest : List Byte}

/-- The tokeniser has room for another byte. -/
theorem ReadState.room {state : ReadState} (short : state.buffer.length < maxLineLength) :
    ¬ state.full none := by
  simp only [full, Bool.false_or, decide_eq_true_eq, not_le]
  exact short

/-- Bytes that are kept go into the token. -/
theorem scanToken_kept (content : List Byte) :
    ∀ state : ReadState, Kept state.quoted content →
      state.buffer.length + content.length ≤ maxLineLength →
      scanToken none tokenImap4 m state (content ++ rest) =
        scanToken none tokenImap4 m ⟨state.buffer ++ content, state.literal,
          quotedAfter state.quoted content⟩ rest := by
  induction content with
  | nil => simp [quotedAfter]
  | cons b content ih =>
    intro state kept short
    obtain ⟨noLf, noCr, noSpace, others⟩ := kept
    simp only [List.length_cons] at short
    have normal : tokenImap4.has tokenImap4Literal = false := by decide
    have imap4 : tokenImap4.has tokenImap4 := by decide
    have step : tokenStep false tokenImap4 m state b = .more ⟨state.buffer ++ [b], state.literal,
        state.quoted ^^ b == dquote⟩ := by
      simp only [tokenStep, Bool.false_eq_true, if_false, normal, noLf, noCr, imap4, if_true]
      by_cases quote : b = dquote
      · simp [quote]
      · by_cases blank : b = space
        · simp [blank, noSpace blank, show space ≠ dquote by decide]
        · simp [quote, blank, beq_eq_false_iff_ne.mpr quote]
    rw [List.cons_append, scanToken_cons _ _ (ReadState.room (by omega)), Option.isSome_none, step]
    dsimp only
    rw [ih _ others (by simp only [List.length_append, List.length_singleton]; omega)]
    simp [quotedAfter]

/-- A space outside quotes ends the token. -/
theorem scanToken_space {state : ReadState} (short : state.buffer.length < maxLineLength)
    (plain : state.quoted = false) :
    scanToken none tokenImap4 m state (space :: rest) =
      some ((⟨state.buffer, tokenNone⟩, state.literal), rest) := by
  have step : tokenStep false tokenImap4 m state space = .stop state tokenNone := by
    simp [tokenStep, plain, show tokenImap4.has tokenImap4Literal = false by decide,
      show space ≠ lf by decide, show space ≠ cr by decide, show space ≠ dquote by decide,
      show tokenImap4.has tokenEol = false by decide]
  rw [scanToken_cons _ _ (ReadState.room short), Option.isSome_none, step]

/-- A line end ends the token and the line. -/
theorem scanToken_crlf {state : ReadState} (short : state.buffer.length < maxLineLength) :
    scanToken none tokenImap4 m state (crlf ++ rest) =
      some ((⟨state.buffer, tokenEol⟩, state.literal), rest) := by
  have normal : tokenImap4.has tokenImap4Literal = false := by decide
  have step_cr : tokenStep false tokenImap4 m state cr = .more state := by
    simp [tokenStep, normal, show cr ≠ lf by decide]
  have step_lf : tokenStep false tokenImap4 m state lf = .stop state tokenEol := by
    simp [tokenStep, normal]
  rw [crlf, List.cons_append, scanToken_cons _ _ (ReadState.room short), Option.isSome_none,
    step_cr]
  dsimp only
  rw [List.cons_append, scanToken_cons _ _ (ReadState.room short), Option.isSome_none, step_lf]
  rfl

/-- Bytes that are kept and leave no quote open are a token before a space. -/
theorem scanToken_word {content : List Byte} (kept : Kept false content)
    (closed : quotedAfter false content = false) (short : content.length < maxLineLength) :
    scanToken none tokenImap4 m .start (content ++ space :: rest) =
      some ((⟨content, tokenNone⟩, []), rest) := by
  rw [scanToken_kept content .start kept (by simpa [ReadState.start] using short.le),
    scanToken_space (by simpa [ReadState.start] using short) closed]
  rfl

/-- Bytes that are kept are a token before a line end. -/
theorem scanToken_lastWord {content : List Byte} (kept : Kept false content)
    (short : content.length < maxLineLength) :
    scanToken none tokenImap4 m .start (content ++ crlf ++ rest) =
      some ((⟨content, tokenEol⟩, []), rest) := by
  rw [List.append_assoc, scanToken_kept content .start kept (by
      simpa [ReadState.start] using short.le),
    scanToken_crlf (by simpa [ReadState.start] using short)]
  rfl

/-- A line goes on after a word and a space. -/
theorem scanLine_word {content : List Byte} (kept : Kept false content)
    (closed : quotedAfter false content = false) (short : content.length < maxLineLength) :
    scanLine tokenImap4 m (content ++ space :: rest) =
      (scanLine tokenImap4 m rest).map fun read => (⟨content, tokenNone⟩ :: read.1, read.2) :=
  scanLine_more (scanToken_word kept closed short) (by simp [Token.isEol_none])

/-- A line ends after a word and a line end. -/
theorem scanLine_lastWord {content : List Byte} (kept : Kept false content)
    (short : content.length < maxLineLength) :
    scanLine tokenImap4 m (content ++ crlf ++ rest) = some ([⟨content, tokenEol⟩], rest) :=
  scanLine_last (scanToken_lastWord kept short) (Token.isEol_eol _)

end scan

/-- Bytes without spaces, quotes and line ends are kept and leave no quote open. -/
theorem kept_word (content : List Byte)
    (plain : ∀ b ∈ content, b ≠ lf ∧ b ≠ cr ∧ b ≠ space ∧ b ≠ dquote) :
    Kept false content ∧ quotedAfter false content = false := by
  induction content with
  | nil => exact ⟨trivial, rfl⟩
  | cons b content ih =>
    obtain ⟨noLf, noCr, noSpace, noQuote⟩ := plain b (List.mem_cons_self ..)
    obtain ⟨kept, closed⟩ := ih fun c member => plain c (List.mem_cons_of_mem b member)
    have same : (false ^^ b == dquote) = false := by simp [beq_eq_false_iff_ne.mpr noQuote]
    exact ⟨⟨noLf, noCr, fun blank => absurd blank noSpace, by rw [same]; exact kept⟩, by
      rwa [quotedAfter, List.foldl_cons, same]⟩

end Perdition
