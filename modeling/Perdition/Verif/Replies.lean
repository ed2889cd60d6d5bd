import Perdition.Verif.Buffers
import Perdition.Verif.Talk

/-!
# Replies of the real server

What the readers of replies do in a talk, as functions of the stream: a line read, a message said, an
untagged line relayed to the client, and the rounds of `imap4_out_response` until a line that is not
relayed.
-/
namespace Perdition

open Lib Program

/-! ## Messages -/

/-- A message to the real server, run in a talk. -/
theorem Talk.run_say (content : List Byte) (fuel : Nat) (t : Talk) :
    ((send content).with .server).run Talk.step fuel t =
      .done (if (t.say content).1 then 0 else -1) (t.say content).2 := by
  rw [Talk.run_server]
  change ((if (t.say content).1 = true then pure 0 else pure (-1) : Dialogue Int).run
    Talk.serverStep fuel (t.say content).2) = _
  split <;> rfl

/-- What relaying a line to the client comes to. -/
inductive Relay where
  /-- Memory outside an object is used. -/
  | fault (why : Fault)
  /-- Nothing is written and the status is -1. -/
  | refused
  /-- One message is written. -/
  | message (content : List Byte)
  deriving DecidableEq

/-- The format that `imap4_out_write_queue` makes of the tag and the second word of a line. -/
def relayFormat (tag : Token) (command : CString) : List Byte :=
  imap4FmtLine nullFlag (some tag) (some command) (some (lit "%s"))

/-- A text that was expanded from a format without arguments left over. -/
def relayText (stale text : List Byte) : Relay :=
  if strWriteBufLen < text.length then .fault .strVwrite
  else .message ((text.take maxText ++ [0]).take text.length ++
    stale.take (text.length - (maxText + 1)))

/-- The talk after a line was relayed, with the status. -/
def Talk.relayed (t : Talk) : Relay → Outcome Talk Stop Int
  | .fault why => .halted (.fault why) t
  | .refused => .done (-1) t
  | .message content => .done (if (t.tell content).1 then 0 else -1) (t.tell content).2

/-- The slow path of `str_vwrite` without a line end of its own, run in a talk. -/
theorem Talk.run_strVwrite {flag : Flag} {nargs : Nat} {fmt : CString} {text : List Byte}
    (noEnd : flag.has writeStrNoCllf) (positive : nargs ≠ 0) (count : fmtArgs fmt.content = nargs)
    (fuel : Nat) (t : Talk) :
    (strVwrite flag nargs fmt (some text)).run Talk.clientStep fuel t =
      t.relayed (relayText t.stale text) := by
  have slow : strVwriteFast flag nargs = false := by simp [strVwriteFast, positive]
  have buf := strVwriteBuf_slow text slow count
  rw [if_pos noEnd] at buf
  have write (content : List Byte) : (do
      if ← ioWrite content then return 0 else return -1 : Dialogue Int).run Talk.clientStep fuel t =
        t.relayed (.message content) := by
    change ((if (t.tell content).1 = true then pure 0 else pure (-1) : Dialogue Int).run
      Talk.clientStep fuel (t.tell content).2) = _
    simp only [Talk.relayed]
    split <;> rfl
  have placed : (text.take maxText ++ [0]).length = min maxText text.length + 1 := by simp
  have room : maxText + 1 ≤ strWriteBufLen := by decide
  have inside : (StrVwrite.mk (text.take maxText ++ [0]) none text.length).inside =
      decide (text.length ≤ strWriteBufLen) := by
    have small : (text.take maxText ++ [0]).length ≤ strWriteBufLen := by rw [placed]; omega
    simp only [StrVwrite.inside, Bool.and_true, decide_eq_true small, Bool.true_and]
  unfold strVwrite
  rw [buf]
  simp only [slow, inside, Bool.not_false, Bool.true_and, Option.isSome_none, Bool.false_eq_true,
    if_false, List.append_nil, relayText]
  by_cases beyond : strWriteBufLen < text.length
  · rw [if_pos beyond, if_pos (by simpa using beyond)]
    rfl
  · rw [if_neg beyond, if_neg (by simpa using beyond)]
    have front : ((text.take maxText ++ [0]).take text.length).length =
        min text.length (min maxText text.length + 1) := by
      rw [List.length_take, placed]
    by_cases short : ((text.take maxText ++ [0]).take text.length).length < text.length
    · rw [if_pos short]
      have old : text.length - ((text.take maxText ++ [0]).take text.length).length =
          text.length - (maxText + 1) := by omega
      rw [old]
      generalize (text.take maxText ++ [0]).take text.length = sent
      generalize text.length - (maxText + 1) = count
      exact write (sent ++ t.stale.take count)
    · rw [if_neg short]
      have none_ : text.length - (maxText + 1) = 0 := by omega
      rw [none_, List.take_zero, List.append_nil]
      exact write _

/-- What writing a format with one string comes to. -/
def relayExpanded (stale : List Byte) (fmt info : CString) : Relay :=
  if fmtArgs fmt.content ≠ 1 then .refused
  else match vformat fmt.content [.str info] with
    | none => .refused
    | some text => relayText stale text

theorem Talk.run_strWrite (fmt info : CString) (fuel : Nat) (t : Talk) :
    (strWrite (nullFlag ||| writeStrNoCllf) 1 fmt [.str info]).run Talk.clientStep fuel t =
      t.relayed (relayExpanded t.stale fmt info) := by
  have slow : strVwriteFast (nullFlag ||| writeStrNoCllf) 1 = false := by decide
  unfold strWrite relayExpanded
  by_cases count : fmtArgs fmt.content = 1
  · rw [if_neg (by simpa using count)]
    cases expanded : vformat fmt.content [.str info] with
    | none =>
      rw [strVwrite, strVwriteBuf_refused slow (.inr rfl)]
      rfl
    | some text => exact Talk.run_strVwrite nullFlag_noEnd (by decide) count fuel t
  · rw [if_pos count, strVwrite, strVwriteBuf_refused slow (.inl count)]
    rfl

/-- What relaying a line comes to: its tag, and the queue of its other words. -/
def relay (stale : List Byte) (tag : Token) : Queue → Relay
  | [] => .refused
  | command :: info => match queueToString info with
    | none => .fault .queueToString
    | some info =>
      let format := relayFormat tag (cstr command.buf)
      if maxLineLength ≤ format.length then .fault .imap4WriteFmt
      else relayExpanded stale (cstr format) info

/-- A format that leaves no room for its NUL is not written. -/
theorem imap4WriteStr_relay (tag : Token) (command info : CString) :
    imap4WriteStr nullFlag (some tag) (some command) (some info) =
      if maxLineLength ≤ (relayFormat tag command).length then fault .imap4WriteFmt
      else strWrite (nullFlag ||| writeStrNoCllf) 1 (cstr (relayFormat tag command))
        [.str info] := by
  have format : imap4WriteFmt nullFlag (some tag) (some command) (some (lit "%s")) =
      if (relayFormat tag command).length < maxLineLength then
        some (some (cstr (relayFormat tag command)), nullFlag ||| writeStrNoCllf) else none := rfl
  rw [imap4WriteStr, imap4Write, format]
  by_cases long : maxLineLength ≤ (relayFormat tag command).length
  · rw [if_pos long, if_neg (Nat.not_lt.mpr long)]
  · rw [if_neg long, if_pos (Nat.lt_of_not_le long)]

/-- A line is relayed as described. -/
theorem Talk.run_relay (tag : Token) (q : Queue) (fuel : Nat) (t : Talk) :
    ((imap4OutWriteQueue tag q).with .client).run Talk.step fuel t =
      t.relayed (relay t.stale tag q) := by
  rw [Talk.run_client]
  cases q with
  | nil => rfl
  | cons command info =>
    simp only [imap4OutWriteQueue, relay, tokenToString_noStrip]
    cases joined : queueToString info with
    | none => rfl
    | some info =>
      have status (outcome : Outcome Talk Stop Int) (plain : ∃ r, outcome = t.relayed r) :
          (outcome.next fun written s => (if written < 0 then pure (-1) else pure 0 :
            Dialogue Int).run Talk.clientStep fuel s) = outcome := by
        obtain ⟨r, rfl⟩ := plain
        cases r with
        | fault why => rfl
        | refused => rfl
        | message content =>
          simp only [Talk.relayed]
          cases (t.tell content).1 <;> rfl
      dsimp only
      rw [imap4WriteStr_relay, run_bind]
      by_cases long : maxLineLength ≤ (relayFormat tag (cstr command.buf)).length
      · rw [if_pos long, if_pos long]
        rfl
      · rw [if_neg long, if_neg long, Talk.run_strWrite]
        exact status _ ⟨_, rfl⟩

/-! ## Lines of a reply -/

/-- The words of a line of an IMAP reply. -/
abbrev replyWords (line : List Byte) : List (List Byte) := words true line

/-- The line is untagged. -/
def UntaggedLine (line : List Byte) : Prop := (replyWords line).head? = some imap4Untagged

instance (line : List Byte) : Decidable (UntaggedLine line) :=
  inferInstanceAs (Decidable ((replyWords line).head? = some imap4Untagged))

/-- The bytes of lines, each with its line feed. -/
def wire (lines : List (List Byte)) : List Byte := lines.flatMap (· ++ [lf])

@[simp] theorem wire_nil : wire [] = [] := rfl

@[simp] theorem wire_cons (line : List Byte) (lines : List (List Byte)) :
    wire (line :: lines) = line ++ [lf] ++ wire lines := rfl

/-- The first token of a line. -/
def lineTag (line : List Byte) : Token :=
  (lineTokens (replyWords line)).headD ⟨[], tokenEol⟩

/-- The tokens of a line after the first. -/
def lineQueue (line : List Byte) : Queue := lineTokens (replyWords line).tail

theorem lineTokens_reply (line : List Byte) :
    lineTokens (replyWords line) = lineTag line :: lineQueue line := by
  have some_ := wordsFrom_ne_nil true line [] false
  change words true line ≠ [] at some_
  cases list : words true line with
  | nil => exact absurd list some_
  | cons word rest =>
    cases rest with
    | nil => simp [lineTag, lineQueue, replyWords, list, lineTokens]
    | cons next rest => simp [lineTag, lineQueue, replyWords, list, lineTokens]

theorem isUntagged_iff (line : List Byte) : isUntagged (lineTag line) = true ↔ UntaggedLine line := by
  have tokens := congrArg (List.map Token.buf) (lineTokens_reply line)
  rw [lineTokens_buf] at tokens
  rw [isUntagged, decide_eq_true_eq, UntaggedLine, tokens]
  simp

/-- The line fits the buffer, where there is one. -/
def Fits (capture : Option Capture) (line : List Byte) : Prop :=
  ∀ c, capture = some c → c.n = 0 ∨ line.length + 1 ≤ c.n

/-- The buffer after a line that fits. -/
def Capture.keep (capture : Option Capture) (line : List Byte) : Option Capture :=
  capture.map fun c => if c.n = 0 then c else c.store (line ++ [lf])

/-- A line that fits is read whole. -/
theorem scanInto_line {flag : Flag} (lines : LineFlag flag) (m : Nat) {capture : Option Capture}
    {line : List Byte} (rest : List Byte) (whole : lf ∉ line) (fits : Fits capture line) :
    scanInto flag m capture (line ++ lf :: rest) =
      some ((lineTokens (words (flag.has tokenImap4) line), Capture.keep capture line), rest) := by
  cases capture with
  | none => simp [scanInto, scanLine_line lines m rest whole, Capture.keep]
  | some c =>
    rcases fits c rfl with zero | room
    · simp [scanInto, zero, scanLine_line lines m rest whole, Capture.keep]
    · have positive : c.n ≠ 0 := by omega
      have captured := scanCaptureRest_line lines m rest whole c.n .start (by decide) (by
        simp only [ReadState.start, List.length_nil]; omega)
      rw [← scanCapture_eq] at captured
      simp [scanInto, positive, captured, Capture.keep, ReadState.start, words]

/-- A line that does not fit is cut where the buffer ends. -/
theorem scanInto_cut {flag : Flag} (lines : LineFlag flag) (m : Nat) {capture : Option Capture}
    {line : List Byte} (rest : List Byte) (whole : lf ∉ line) (cut : ¬ Fits capture line) :
    ∃ n q capture', n ≤ line.length ∧ q ≠ [] ∧
      scanInto flag m capture (line ++ lf :: rest) =
        some ((q, capture'), line.drop n ++ lf :: rest) := by
  simp only [Fits, not_forall, not_or, not_le] at cut
  obtain ⟨c, rfl, positive, cut⟩ := cut
  have open_ : lf ∉ line.take c.n := fun member => whole (List.mem_of_mem_take member)
  obtain ⟨q, scanned, some_⟩ := scanCaptureRest_cut lines m (line.drop c.n ++ lf :: rest) open_
    c.n .start (by decide) (by
      simp only [ReadState.start, List.length_nil, List.length_take]; omega)
  rw [← List.append_assoc, List.take_append_drop, ← scanCapture_eq] at scanned
  exact ⟨c.n, q, some (c.store (line.take c.n)), by omega, some_, by
    simp [scanInto, positive, scanned, ReadState.start]⟩

/-- A line is taken from the front of the stream. -/
theorem scanInto_length {flag : Flag} (lines : LineFlag flag) {m : Nat} {capture : Option Capture}
    {stream rest : List Byte} {read : Queue × Option Capture}
    (scanned : scanInto flag m capture stream = some (read, rest)) :
    rest.length ≤ stream.length := by
  have plain {q : Queue} (line : scanLine flag m stream = some (q, rest)) :
      rest.length ≤ stream.length := by
    by_cases member : lf ∈ stream
    · obtain ⟨front, rest', rfl, whole⟩ := List.eq_append_cons_of_mem member
      rw [scanLine_line lines m rest' whole, Option.some.injEq, Prod.mk.injEq] at line
      rw [← line.2, List.length_append, List.length_cons]
      omega
    · rw [scanLine_open lines m member] at line
      cases line
  cases capture with
  | none =>
    cases line : scanLine flag m stream with
    | none => simp [scanInto, line] at scanned
    | some read' =>
      simp only [scanInto, line, Option.map_some, Option.some.injEq, Prod.mk.injEq] at scanned
      exact plain (by rw [line, ← scanned.2])
  | some c =>
    simp only [scanInto] at scanned
    split at scanned
    · cases line : scanLine flag m stream with
      | none => simp [line] at scanned
      | some read' =>
        simp only [line, Option.map_some, Option.some.injEq, Prod.mk.injEq] at scanned
        exact plain (by rw [line, ← scanned.2])
    · cases line : scanCapture flag m c.n stream with
      | none => simp [line] at scanned
      | some read' =>
        simp only [line, Option.map_some, Option.some.injEq, Prod.mk.injEq] at scanned
        rw [← scanCapture_whole line, ← scanned.2, List.length_append]
        omega

/-! ## Rounds of a response -/

namespace Talk

/-- A round of `imap4_out_response` after an untagged line was read. -/
def passOn (relaying : Bool) (t : Talk) (first : Token) (q : Queue) (capture : Option Capture) :
    Outcome Talk Stop (Option Capture ⊕ Response) :=
  if relaying then
    (t.relayed (relay t.stale first q)).next fun status t =>
      .done (if status < 0 then .inr ⟨-1, [], capture⟩ else .inl capture) t
  else .done (.inl capture) t

/-- A round of `imap4_out_response` after a line was read. -/
def answer (relaying : Bool) (tag : Option Token) (desired : Token) (t : Talk) (q : Queue)
    (capture : Option Capture) : Outcome Talk Stop (Option Capture ⊕ Response) :=
  match q, tag with
  | [], _ => .done (.inr ⟨-1, [], capture⟩) t
  | first :: q, some tag =>
    if isUntagged first then t.passOn relaying first q capture
    else if !tokenCmp tag first then .done (.inr ⟨-1, [], capture⟩) t
    else .done (.inr (imap4OutCheck desired q capture)) t
  | first :: q, none =>
    if !isUntagged first then .done (.inr ⟨-1, [], capture⟩) t
    else .done (.inr (imap4OutCheck desired q capture)) t

/-- A round of `imap4_out_response`. -/
def round (relaying : Bool) (tag : Option Token) (desired : Token) (t : Talk)
    (capture : Option Capture) : Outcome Talk Stop (Option Capture ⊕ Response) :=
  match scanInto tokenImap4 0 capture t.stream with
  | none => .done (.inr ⟨-1, [], capture⟩) t.starved
  | some ((q, capture), rest) => (t.advance rest).answer relaying tag desired q capture

/-- A round of `imap4_out_response`, run in a talk. -/
theorem run_round (relaying : Bool) (tag : Option Token) (desired : Token)
    (capture : Option Capture) {fuel : Nat} {t : Talk} (enough : t.stream.length < fuel) :
    (imap4OutResponseRound relaying tag desired capture).run step fuel t =
      t.round relaying tag desired capture := by
  rw [imap4OutResponseRound, run_bind, run_readLineInto lineFlag_imap4 0 capture enough,
    Outcome.next_done, round]
  cases scanInto tokenImap4 0 capture t.stream with
  | none => rfl
  | some read =>
    obtain ⟨⟨q, capture⟩, rest⟩ := read
    dsimp only [Option.map_some, after]
    cases q with
    | nil => cases tag <;> rfl
    | cons first q =>
      cases tag with
      | none =>
        simp only [answer]
        split <;> rfl
      | some tag =>
        dsimp only [answer]
        by_cases untagged : isUntagged first = true
        · rw [if_pos untagged, if_pos untagged]
          cases relaying with
          | false => rfl
          | true =>
            simp only [passOn, if_true]
            rw [run_bind, run_relay]
            congr 1
            funext status t'
            split <;> rfl
        · rw [if_neg untagged, if_neg untagged]
          split <;> rfl

/-- The talk after a line was read. -/
def hearLine (t : Talk) (line : List Byte) : Talk :=
  { t with
    stream := t.stream.drop (line.length + 1)
    log := t.log.hear (line ++ [lf]) }

/-- A round that reads a line that fits. -/
theorem round_line {relaying : Bool} {tag : Option Token} {desired : Token} {t : Talk}
    {capture : Option Capture} {line rest : List Byte} (stream : t.stream = line ++ lf :: rest)
    (whole : lf ∉ line) (fits : Fits capture line) :
    t.round relaying tag desired capture =
      (t.hearLine line).answer relaying tag desired (lineTag line :: lineQueue line)
        (Capture.keep capture line) := by
  have heard : t.advance rest = t.hearLine line := by
    have front : t.stream = (line ++ [lf]) ++ rest := by simp [stream]
    rw [advance_append front, hearLine, front, List.drop_left' (by simp)]
  rw [round, stream, scanInto_line lineFlag_imap4 0 rest whole fits]
  simp only [heard]
  rw [show tokenImap4.has tokenImap4 = true by decide, lineTokens_reply]

/-- What becomes of untagged lines in a response. -/
def passLines (relaying : Bool) :
    List (List Byte) → Option Capture → Talk → Outcome Talk Stop (Option Capture ⊕ Response)
  | [], capture, t => .done (.inl capture) t
  | line :: lines, capture, t =>
    ((t.hearLine line).passOn relaying (lineTag line) (lineQueue line)
      (Capture.keep capture line)).next fun r t =>
        match r with
        | .inl capture => passLines relaying lines capture t
        | .inr r => .done (.inr r) t

end Talk

/-- Each line fits what the lines before it leave of the buffer. -/
def FitAll (capture : Option Capture) : List (List Byte) → Prop
  | [] => True
  | line :: lines => Fits capture line ∧ FitAll (Capture.keep capture line) lines

/-- Lines before the end of a response: whole and untagged. -/
def UntaggedLines (lines : List (List Byte)) : Prop :=
  ∀ line ∈ lines, lf ∉ line ∧ UntaggedLine line

instance (lines : List (List Byte)) : Decidable (UntaggedLines lines) :=
  inferInstanceAs (Decidable (∀ line ∈ lines, lf ∉ line ∧ UntaggedLine line))

namespace Talk

/-- Relaying takes nothing from the stream, and fails or leaves the buffer as it is. -/
theorem passOn_done {relaying : Bool} {t t' : Talk} {first : Token} {q : Queue}
    {capture : Option Capture} {r : Option Capture ⊕ Response}
    (passed : t.passOn relaying first q capture = .done r t') :
    t'.stream = t.stream ∧ (r = .inl capture ∨ r = .inr ⟨-1, [], capture⟩) := by
  unfold passOn at passed
  cases relaying with
  | false =>
    simp only [Bool.false_eq_true, if_false, Outcome.done.injEq] at passed
    exact ⟨by rw [← passed.2], .inl passed.1.symm⟩
  | true =>
    rw [if_pos rfl] at passed
    cases relayed_ : relay t.stale first q with
    | fault why => simp [relayed_, relayed] at passed
    | refused =>
      simp only [relayed_, relayed, Outcome.next_done, Outcome.done.injEq] at passed
      exact ⟨by rw [← passed.2], .inr passed.1.symm⟩
    | message content =>
      simp only [relayed_, relayed, Outcome.next_done, Outcome.done.injEq] at passed
      refine ⟨by rw [← passed.2]; rfl, ?_⟩
      rw [← passed.1]
      cases (t.tell content).1 with
      | true => exact .inl rfl
      | false => exact .inr rfl

theorem hearLine_stream {t : Talk} {line rest : List Byte} (stream : t.stream = line ++ lf :: rest) :
    (t.hearLine line).stream = rest := by
  have front : t.stream = (line ++ [lf]) ++ rest := by simp [stream]
  rw [hearLine, front, List.drop_left' (by simp)]

/-- A response passes untagged lines on one after another. -/
theorem run_response_lines (relaying : Bool) (tag desired : Token) {fuel : Nat}
    {lines : List (List Byte)} (untagged : UntaggedLines lines) (tail : List Byte) :
    ∀ (rounds : Nat) (capture : Option Capture) (t : Talk), t.stream = wire lines ++ tail →
      t.stream.length < fuel → FitAll capture lines →
      iterate (fun capture t => (imap4OutResponseRound relaying (some tag) desired capture).run step
          fuel t) (lines.length + rounds) capture t =
        (t.passLines relaying lines capture).next fun r t =>
          match r with
          | .inl capture => iterate (fun capture t =>
              (imap4OutResponseRound relaying (some tag) desired capture).run step fuel t)
              rounds capture t
          | .inr r => .done r t := by
  induction lines with
  | nil =>
    intro rounds capture t stream enough fits
    simp [passLines]
  | cons line lines ih =>
    intro rounds capture t stream enough fits
    obtain ⟨whole, first⟩ := untagged line (List.mem_cons_self ..)
    have others : UntaggedLines lines := fun line member =>
      untagged line (List.mem_cons_of_mem _ member)
    have stream' : t.stream = line ++ lf :: (wire lines ++ tail) := by
      rw [stream, wire_cons]; simp
    have left := hearLine_stream stream'
    rw [List.length_cons, Nat.add_right_comm, iterate, run_round _ _ _ _ enough,
      round_line stream' whole fits.1, passLines]
    have untagged_ : isUntagged (lineTag line) = true := (isUntagged_iff line).mpr first
    simp only [answer, untagged_, if_true]
    cases passed : (t.hearLine line).passOn relaying (lineTag line) (lineQueue line)
        (Capture.keep capture line) with
    | done r t' =>
      obtain ⟨same, rfl | rfl⟩ := passOn_done passed
      · rw [Outcome.next_done, Outcome.next_done]
        rw [left] at same
        have shorter : t'.stream.length < fuel := by
          rw [stream'] at enough
          simp only [List.length_append, List.length_cons] at enough
          rw [same, List.length_append]
          omega
        exact ih others rounds _ t' same shorter fits.2
      · rfl
    | halted why t' => rfl
    | looping t' => rfl

/-- The buffer after lines that fit. -/
def keepAll (capture : Option Capture) (lines : List (List Byte)) : Option Capture :=
  lines.foldl Capture.keep capture

/-- A round after which the loop goes on has taken what it read from the stream. -/
theorem answer_again {relaying : Bool} {tag : Option Token} {desired : Token} {t t' : Talk}
    {q : Queue} {capture capture' : Option Capture}
    (again : t.answer relaying tag desired q capture = .done (.inl capture') t') :
    t'.stream = t.stream := by
  unfold answer at again
  split at again
  · simp at again
  · split at again
    · exact (passOn_done again).1
    · split at again <;> simp at again
  · split at again <;> simp at again

/-- Lines are passed on to the last one, or a line is not relayed. -/
theorem passLines_done {relaying : Bool} {lines : List (List Byte)} {tail : List Byte} :
    ∀ {capture : Option Capture} {t t' : Talk} {r : Option Capture ⊕ Response},
      t.stream = wire lines ++ tail → t.passLines relaying lines capture = .done r t' →
      (r = .inl (keepAll capture lines) ∧ t'.stream = tail) ∨
        ∃ capture' line rest, r = .inr ⟨-1, [], capture'⟩ ∧ line ++ lf :: rest <:+ t.stream ∧
          t'.stream = rest ∧ tail <:+ rest := by
  induction lines with
  | nil =>
    intro capture t t' r stream passed
    simp only [passLines, Outcome.done.injEq] at passed
    rw [← passed.1, ← passed.2]
    exact .inl ⟨rfl, stream⟩
  | cons line lines ih =>
    intro capture t t' r stream passed
    have stream' : t.stream = line ++ lf :: (wire lines ++ tail) := by
      rw [stream, wire_cons]; simp
    have left := hearLine_stream stream'
    rw [passLines] at passed
    cases first : (t.hearLine line).passOn relaying (lineTag line) (lineQueue line)
        (Capture.keep capture line) with
    | done r₁ t₁ =>
      obtain ⟨same, rfl | rfl⟩ := passOn_done first
      · rw [first, Outcome.next_done] at passed
        rw [left] at same
        rcases ih same passed with whole | ⟨capture', line', rest, failed, shorter, others⟩
        · exact .inl whole
        · refine .inr ⟨capture', line', rest, failed, shorter.trans ?_, others⟩
          rw [stream', same]
          exact ⟨line ++ [lf], by simp⟩
      · rw [first, Outcome.next_done] at passed
        simp only [Outcome.done.injEq] at passed
        refine .inr ⟨_, line, wire lines ++ tail, passed.1.symm, ?_, ?_, ⟨wire lines, rfl⟩⟩
        · exact stream' ▸ List.suffix_rfl
        · rw [← passed.2, same, left]
    | halted why t₁ => simp [first] at passed
    | looping t₁ => simp [first] at passed

end Talk

theorem fitAll_append {capture : Option Capture} {lines more : List (List Byte)} :
    FitAll capture (lines ++ more) ↔
      FitAll capture lines ∧ FitAll (Talk.keepAll capture lines) more := by
  induction lines generalizing capture with
  | nil => simp [FitAll, Talk.keepAll]
  | cons line lines ih => simp [FitAll, ih, Talk.keepAll, and_assoc]

namespace Talk

/-- What the first line that is not untagged makes of a response. -/
def lastAnswer (tag desired : Token) (last : List Byte) (capture : Option Capture) : Response :=
  if tokenCmp tag (lineTag last) then
    imap4OutCheck desired (lineQueue last) (Capture.keep capture last)
  else ⟨-1, [], Capture.keep capture last⟩

/-- A response ends with the first line that is not untagged. -/
theorem run_response (relaying : Bool) (tag desired : Token) {fuel : Nat} {capture : Option Capture}
    {lines : List (List Byte)} {last rest : List Byte} {t : Talk}
    (stream : t.stream = wire lines ++ (last ++ lf :: rest)) (untagged : UntaggedLines lines)
    (whole : lf ∉ last) (tagged : ¬ UntaggedLine last) (fits : FitAll capture (lines ++ [last]))
    (enough : t.stream.length < fuel) :
    (imap4OutResponse relaying (some tag) desired capture).run step fuel t =
      (t.passLines relaying lines capture).next fun r t =>
        match r with
        | .inl capture => .done (lastAnswer tag desired last capture) (t.hearLine last)
        | .inr r => .done r t := by
  rw [fitAll_append] at fits
  have length (lines : List (List Byte)) : lines.length ≤ (wire lines).length := by
    induction lines with
    | nil => simp
    | cons line lines ih => simp only [wire_cons, List.length_append, List.length_cons]; omega
  have turns : lines.length + 1 ≤ fuel := by
    rw [stream, List.length_append, List.length_append] at enough
    have := length lines
    omega
  obtain ⟨rounds, rfl⟩ : ∃ rounds, fuel = lines.length + (rounds + 1) :=
    ⟨fuel - lines.length - 1, by omega⟩
  rw [imap4OutResponse, run_loop, run_response_lines relaying tag desired untagged _ _ capture t
    stream enough fits.1]
  cases passed : t.passLines relaying lines capture with
  | done r t' =>
    rcases passLines_done stream passed with ⟨rfl, left⟩ | ⟨capture', line, rest', rfl, _⟩
    · simp only [Outcome.next_done]
      have shorter : t'.stream.length < lines.length + (rounds + 1) := by
        rw [left]
        rw [stream, List.length_append] at enough
        omega
      rw [iterate, run_round _ _ _ _ shorter, round_line left whole fits.2.1]
      have other : isUntagged (lineTag last) = false := by
        rw [← Bool.not_eq_true, isUntagged_iff]; exact tagged
      simp only [answer, other, Bool.false_eq_true, if_false, lastAnswer]
      cases tokenCmp tag (lineTag last) <;> rfl
    · rfl
  | halted why t' => rfl
  | looping t' => rfl

end Talk

/-! ## Lines that are relayed -/

/-- What relaying an untagged line comes to. -/
def relayOf (stale line : List Byte) : Relay := relay stale (lineTag line) (lineQueue line)

/-- The message that a line is relayed as. -/
def relayBytes (stale line : List Byte) : List Byte :=
  match relayOf stale line with
  | .message content => content
  | _ => []

/-- The line is relayed by one message. -/
def Relayed (stale line : List Byte) : Prop := relayOf stale line = .message (relayBytes stale line)

instance (stale line : List Byte) : Decidable (Relayed stale line) :=
  inferInstanceAs (Decidable (relayOf stale line = .message (relayBytes stale line)))

/-- Each line is relayed by one message, and each message is written. -/
def AllRelayed (stale : List Byte) : List (List Byte) → List Bool → Prop
  | [], _ => True
  | line :: lines, writes =>
    Relayed stale line ∧ writes.headD true = true ∧ AllRelayed stale lines writes.tail

namespace Talk

/-- The talk after untagged lines were passed on. -/
def passed (relaying : Bool) (t : Talk) (lines : List (List Byte)) : Talk :=
  { t with
    stream := t.stream.drop (wire lines).length
    clientWrites := if relaying then t.clientWrites.drop lines.length else t.clientWrites
    log := { t.log.hear (wire lines) with
      told := t.log.told ++ if relaying then lines.map fun line => (relayBytes t.stale line, true)
        else [] } }

@[simp] theorem passed_nil (relaying : Bool) (t : Talk) : t.passed relaying [] = t := by
  cases relaying <;> simp [passed, Log.hear]

/-- Lines are passed on silently where there is no client. -/
theorem passed_cons_false (t : Talk) (line : List Byte) (lines : List (List Byte)) :
    (t.hearLine line).passed false lines = t.passed false (line :: lines) := by
  simp [passed, hearLine, Log.hear, Nat.add_assoc, Nat.add_comm 1]

/-- A line is relayed before the lines after it. -/
theorem passed_cons_true {t : Talk} (line : List Byte) (lines : List (List Byte))
    (written : t.clientWrites.headD true = true) :
    ((t.hearLine line).tell (relayBytes t.stale line)).2.passed true lines =
      t.passed true (line :: lines) := by
  have ok : t.clientWrites.head?.getD true = true := by simpa using written
  simp [passed, hearLine, tell, Log.tell, Log.hear, Nat.add_assoc, Nat.add_comm 1, ok]

/-- Untagged lines are all passed on exactly where each is relayed. -/
theorem passLines_iff (relaying : Bool) {lines : List (List Byte)} :
    ∀ {capture capture' : Option Capture} {t t' : Talk},
      t.passLines relaying lines capture = .done (.inl capture') t' ↔
        (relaying → AllRelayed t.stale lines t.clientWrites) ∧
          capture' = keepAll capture lines ∧ t' = t.passed relaying lines := by
  induction lines with
  | nil =>
    intro capture capture' t t'
    simp [passLines, AllRelayed, keepAll, eq_comm]
  | cons line lines ih =>
    intro capture capture' t t'
    rw [passLines, passOn]
    cases relaying with
    | false =>
      simp only [Bool.false_eq_true, if_false, Outcome.next_done, ih, passed_cons_false]
      simp [keepAll]
    | true =>
      have stale : (t.hearLine line).stale = t.stale := rfl
      have same : relay t.stale (lineTag line) (lineQueue line) = relayOf t.stale line := rfl
      rw [if_pos rfl, stale, same]
      cases relay_ : relayOf t.stale line with
      | fault why =>
        simp [relayed, AllRelayed, Relayed, relay_]
      | refused =>
        simp [relayed, AllRelayed, Relayed, relay_]
      | message content =>
        have bytes_ : relayBytes t.stale line = content := by rw [relayBytes, relay_]
        have told : ((t.hearLine line).tell content).1 = t.clientWrites.headD true := rfl
        simp only [relayed, Outcome.next_done, told, AllRelayed, Relayed, relay_, bytes_, true_and]
        cases written : t.clientWrites.headD true with
        | false => simp
        | true =>
          have next := passed_cons_true line lines written
          rw [bytes_] at next
          simp only [if_true, Int.lt_irrefl, if_false, ih, next, true_and]
          rfl

end Talk

end Perdition
