import Perdition.Verif.Replies

/-!
# Untagged lines relayed to the client

An untagged line is read as words, its second word becomes part of a format, and the others are
joined again. Here is when the client receives the line as it is: the line has a third word, its
second word has no percent sign, and the message fits the write buffer.
-/
namespace Perdition

open Lib Program

/-! ## Expanding a format -/

/-- The conversions before a byte that is no percent sign are counted by themselves. -/
theorem fmtArgs_append {b : Byte} (other : b ≠ 37) (rest : List Byte) (front : List Byte) :
    fmtArgs (front ++ b :: rest) = fmtArgs front + fmtArgs rest := by
  fun_induction fmtArgs front with
  | case1 front ih => simpa [fmtArgs] using ih
  | case2 front noPair ih =>
    have noPair' : ∀ tail, front ++ b :: rest ≠ 37 :: tail := by
      intro tail same
      cases front with
      | nil => simp [other] at same
      | cons c front =>
        simp only [List.cons_append, List.cons.injEq] at same
        exact noPair front (by rw [same.1])
    rw [List.cons_append, fmtArgs.eq_2 _ noPair', ih]
    omega
  | case3 c front noPair noPercent ih =>
    rw [List.cons_append, fmtArgs.eq_3 _ _ (fun _ same _ => noPercent same) noPercent, ih]
  | case4 => simp [fmtArgs, other]

/-- A format without conversions expands to a text that is shorter where it has a percent sign. -/
theorem vformat_escaped {front : List Byte} (none_ : fmtArgs front = 0) :
    ∃ text : List Byte, text.length ≤ front.length ∧
      (percent ∈ front → text.length < front.length) ∧
      ∀ (b : Byte) (rest : List Byte) (args : List Arg), b ≠ 37 →
        vformat (front ++ b :: rest) args = (vformat (b :: rest) args).map (text ++ ·) := by
  fun_induction fmtArgs front with
  | case1 front ih =>
    obtain ⟨text, short, _, expand⟩ := ih none_
    refine ⟨percent :: text, ?_, fun _ => ?_, fun b rest args other => ?_⟩
    · simp only [List.length_cons]; omega
    · simp only [List.length_cons]; omega
    · rw [List.cons_append, List.cons_append, vformat.eq_1, expand b rest args other]
      simp [Function.comp_def]
  | case2 front noPair ih => omega
  | case3 c front noPair noPercent ih =>
    obtain ⟨text, short, shorter, expand⟩ := ih none_
    refine ⟨c :: text, ?_, fun member => ?_, fun b rest args other => ?_⟩
    · simpa using short
    · have inside : percent ∈ front := by
        rcases List.mem_cons.mp member with same | inside
        · exact (noPercent same.symm).elim
        · exact inside
      simpa using shorter inside
    · have plain : ∀ tail, c :: (front ++ b :: rest) ≠ 37 :: tail := by
        intro tail same
        exact noPercent (List.cons.inj same).1
      rw [List.cons_append, vformat.eq_5 _ _ _ (by simp_all) (by simp_all) (by simp_all)
        (by simp_all), expand b rest args other]
      simp [Function.comp_def]
  | case4 => exact ⟨[], by simp, by simp, by simp⟩

/-! ## Words without NUL -/

/-- The bytes of words are those of the line. -/
theorem mem_wordsFrom {quotes : Bool} {line : List Byte} {b : Byte} :
    ∀ {word : List Byte} {quoted : Bool} {w : List Byte},
      w ∈ wordsFrom quotes word quoted line → b ∈ w → b ∈ word ∨ b ∈ line := by
  induction line with
  | nil =>
    intro word quoted w member inside
    simp only [wordsFrom, List.mem_singleton] at member
    exact .inl (member ▸ inside)
  | cons c line ih =>
    intro word quoted w member inside
    rw [wordsFrom] at member
    split at member
    · exact (ih member inside).imp_right (List.mem_cons_of_mem c)
    · split at member
      · rcases List.mem_cons.mp member with rfl | later
        · exact .inl inside
        · rcases ih later inside with empty | inLine
          · simp at empty
          · exact .inr (List.mem_cons_of_mem c inLine)
      · split at member
        · rcases List.mem_cons.mp member with rfl | later
          · rcases List.mem_append.mp inside with front | last
            · exact .inl front
            · exact .inr (List.mem_singleton.mp last ▸ List.mem_cons_self ..)
          · rcases ih later inside with empty | inLine
            · simp at empty
            · exact .inr (List.mem_cons_of_mem c inLine)
        · rcases ih member inside with front | inLine
          · rcases List.mem_append.mp front with front | last
            · exact .inl front
            · exact .inr (List.mem_singleton.mp last ▸ List.mem_cons_self ..)
          · exact .inr (List.mem_cons_of_mem c inLine)

theorem mem_words {quotes : Bool} {line w : List Byte} {b : Byte} (member : w ∈ words quotes line)
    (inside : b ∈ w) : b ∈ line := by
  rcases mem_wordsFrom member inside with empty | inLine
  · simp at empty
  · exact inLine

/-- `strncpy` changes nothing of a word before its first NUL. -/
theorem cstr_strncpy (w : List Byte) {left right : List Byte} (same : cstr left = cstr right) :
    cstr (strncpyBytes w ++ left) = cstr (w ++ right) := by
  by_cases nul : 0 ∈ w
  · have ⟨front, back, split_, first⟩ := List.eq_append_cons_of_mem nul
    have copied : strncpyBytes w = front ++ 0 :: List.replicate back.length 0 := by
      have before : w.takeWhile (· != 0) = front := by
        rw [split_, List.takeWhile_append_of_pos (fun b member => bne_iff_ne.mpr fun (zero : b = 0) =>
          first (zero ▸ member)), List.takeWhile_cons_of_neg (by decide), List.append_nil]
      rw [strncpyBytes, before, split_, List.length_append, Nat.add_sub_cancel_left, List.length_cons,
        List.replicate_succ]
    rw [copied, split_, List.append_assoc, List.append_assoc, List.cons_append, List.cons_append,
      cstr_nul, cstr_nul]
  · rw [strncpyBytes_noNul nul]
    exact CString.ext (by rw [cstr_append nul, cstr_append nul, same])

/-- The string of a queue ends at the first NUL of its words joined by spaces. -/
theorem queueToString_lineTokens {list : List (List Byte)} (some_ : list ≠ []) :
    queueToString (lineTokens list) = some (cstr (List.intercalate [space] list)) := by
  have copied (list : List (List Byte)) (some_ : list ≠ []) :
      ∃ text, (lineTokens list).flatMap (fun t => strncpyBytes t.buf ++ [space]) = text ++ [space] ∧
        cstr text = cstr (List.intercalate [space] list) := by
    induction list with
    | nil => exact absurd rfl some_
    | cons word rest ih =>
      cases rest with
      | nil =>
        have same : cstr (strncpyBytes word ++ []) = cstr (word ++ []) := cstr_strncpy word rfl
        rw [List.append_nil, List.append_nil] at same
        exact ⟨strncpyBytes word, by simp [lineTokens], by simpa [List.intercalate] using same⟩
      | cons next rest =>
        obtain ⟨text, whole, same⟩ := ih (List.cons_ne_nil _ _)
        have longer : cstr (space :: text) = cstr (space :: List.intercalate [space] (next :: rest)) :=
          CString.ext (by
            rw [← List.singleton_append, ← List.singleton_append (l := List.intercalate _ _),
              cstr_append (by decide), cstr_append (by decide), same])
        refine ⟨strncpyBytes word ++ space :: text, ?_, ?_⟩
        · rw [lineTokens_cons (List.cons_ne_nil _ _), List.flatMap_cons, whole]
          simp
        · rw [intercalate_cons (List.cons_ne_nil _ _)]
          exact cstr_strncpy word longer
  obtain ⟨text, whole, same⟩ := copied list some_
  unfold queueToString
  split
  · rename_i none_
    rw [none_] at whole
    exact absurd whole (by simp)
  · rw [whole, List.dropLast_concat, same]

/-! ## The message -/

/-- A text is relayed as it is exactly where it fits the write buffer. -/
theorem relayText_exact {stale text : List Byte} (noNul : 0 ∉ text) :
    relayText stale text = .message text ↔ text.length ≤ maxText := by
  have limit : maxText + 3 = strWriteBufLen := by decide
  unfold relayText
  by_cases beyond : strWriteBufLen < text.length
  · rw [if_pos beyond]
    exact iff_of_false (by simp) (by omega)
  rw [if_neg beyond, Relay.message.injEq]
  constructor
  · intro same
    by_contra long
    -- the NUL after the truncated text is sent
    have inside : 0 ∈ (text.take maxText ++ [0]).take text.length := by
      have length : (text.take maxText ++ [0]).length = maxText + 1 := by
        rw [List.length_append, List.length_take]
        simp only [List.length_singleton]
        omega
      rw [List.take_of_length_le (by rw [length]; omega)]
      simp
    exact noNul (same ▸ List.mem_append_left _ inside)
  · intro fits
    rw [List.take_of_length_le fits, List.take_append_of_le_length le_rfl, List.take_length,
      Nat.sub_eq_zero_of_le (by omega), List.take_zero, List.append_nil]

/-- A message is never longer than its text. -/
theorem relayText_length {stale text content : List Byte}
    (message : relayText stale text = .message content) : content.length ≤ text.length := by
  unfold relayText at message
  split at message
  · cases message
  · simp only [Relay.message.injEq] at message
    rw [← message]
    simp only [List.length_append, List.length_take, List.length_singleton]
    omega

/-- The format of a line: its first two words, and a conversion for the others. -/
theorem relayFormat_eq {tag : Token} {command : List Byte} (noNul : 0 ∉ command) :
    relayFormat tag (cstr command) =
      (tag.buf ++ space :: command) ++ space :: (bytes "%s" ++ crlf) := by
  have given : (lit "%s").isEmpty = false := by decide
  have content : (lit "%s").content = bytes "%s" := content_lit (by decide)
  simp [relayFormat, imap4FmtLine, given, content, nullFlag_end, cstr_content noNul]

/-- The words of a line as they are relayed. -/
theorem relayOf_words {stale line w command info : List Byte} {rest : List (List Byte)}
    (list : replyWords line = w :: command :: info :: rest) (noNul : 0 ∉ line) :
    relayOf stale line =
      if maxLineLength ≤ ((w ++ space :: command) ++ space :: (bytes "%s" ++ crlf)).length then
        .fault .imap4WriteFmt
      else relayExpanded stale (cstr ((w ++ space :: command) ++ space :: (bytes "%s" ++ crlf)))
        (cstr (List.intercalate [space] (info :: rest))) := by
  have clean : ∀ word ∈ replyWords line, 0 ∉ word :=
    fun word member nul => noNul (mem_words member nul)
  rw [list] at clean
  have tag : lineTag line = ⟨w, tokenNone⟩ := by simp [lineTag, list, lineTokens]
  have queue : lineQueue line = ⟨command, tokenNone⟩ :: lineTokens (info :: rest) := by
    rw [lineQueue, list, List.tail_cons, lineTokens_cons (by simp)]
  have joined : queueToString (lineTokens (info :: rest)) =
      some (cstr (List.intercalate [space] (info :: rest))) :=
    queueToString_lineTokens (List.cons_ne_nil _ _)
  rw [relayOf, tag, queue, relay, joined]
  dsimp only
  rw [relayFormat_eq (clean command (by simp))]

/-- A format of plain bytes and one string is expanded to the bytes and the string. -/
theorem relayExpanded_plain {stale front info : List Byte} (plain : Plain front)
    (noNul : 0 ∉ front) (noNul' : 0 ∉ info) :
    relayExpanded stale (cstr (front ++ space :: (bytes "%s" ++ crlf))) (cstr info) =
      relayText stale (front ++ space :: (info ++ crlf)) := by
  have plain' : Plain (front ++ [space]) := plain.append (by decide)
  have clean : 0 ∉ (front ++ [space]) ++ (bytes "%s" ++ crlf) := by
    simp [noNul, show (0 : Byte) ≠ space by decide, show 0 ∉ bytes "%s" by decide,
      show 0 ∉ crlf by decide]
  have shape (rest : List Byte) : front ++ space :: rest = (front ++ [space]) ++ rest := by simp
  rw [shape (bytes "%s" ++ crlf), relayExpanded, cstr_content clean, fmtArgs_plain_append plain',
    vformat_plain_append plain', vformat_string, if_neg (by decide), Option.map_some]
  simp [cstr_content noNul']

/-- A second word with a percent sign is not relayed as it is. -/
theorem relayExpanded_percent {stale w command info content : List Byte} (plain : Plain w)
    (noNul : 0 ∉ w) (noNul' : 0 ∉ command) (member : percent ∈ command)
    (message : relayExpanded stale
      (cstr ((w ++ space :: command) ++ space :: (bytes "%s" ++ crlf))) (cstr info) =
        .message content) :
    content.length < (w ++ space :: command ++ space :: (info ++ crlf)).length := by
  have clean : 0 ∉ (w ++ space :: command) ++ space :: (bytes "%s" ++ crlf) := by
    simp [noNul, noNul', show (0 : Byte) ≠ space by decide, show 0 ∉ bytes "%s" by decide,
      show 0 ∉ crlf by decide]
  have other : space ≠ 37 := by decide
  have tail : fmtArgs (bytes "%s" ++ crlf) = 1 := by decide
  have front : fmtArgs (w ++ space :: command) = fmtArgs command := by
    have shape : w ++ space :: command = (w ++ [space]) ++ command := by simp
    rw [shape, fmtArgs_plain_append (plain.append (by decide))]
  rw [relayExpanded, cstr_content clean, fmtArgs_append other, tail, front] at message
  by_cases none_ : fmtArgs command = 0
  · obtain ⟨text, _, shorter, expand⟩ := vformat_escaped none_
    have shape : (w ++ space :: command) ++ space :: (bytes "%s" ++ crlf) =
        (w ++ [space]) ++ (command ++ space :: (bytes "%s" ++ crlf)) := by simp
    have last : vformat (space :: (bytes "%s" ++ crlf)) [.str (cstr info)] =
        some (space :: ((cstr info).content ++ crlf)) := by
      have single : space :: (bytes "%s" ++ crlf) = [space] ++ (bytes "%s" ++ crlf) := rfl
      rw [single, vformat_plain_append (by decide), vformat_string]
      rfl
    rw [if_neg (by simp [none_]), shape, vformat_plain_append (plain.append (by decide)),
      expand _ _ _ other, last] at message
    have bound := relayText_length message
    have small := cstr_length_le info
    have less := shorter member
    simp only [List.length_append, List.length_cons, List.length_nil, CString.length]
      at bound small ⊢
    omega
  · rw [if_pos (by omega)] at message
    cases message

/-- A line is relayed as it is exactly where it has a third word, its second word has no percent sign
and the message fits the write buffer. -/
theorem relayOf_exact {stale line : List Byte} (untagged : UntaggedLine line) (noNul : 0 ∉ line)
    (short : line.length < maxLineLength) :
    relayOf stale line = .message (withoutCr line ++ crlf) ↔
      (∃ command info rest, replyWords line = imap4Untagged :: command :: info :: rest ∧
        percent ∉ command) ∧ (withoutCr line).length + 2 ≤ maxText := by
  have star : Plain imap4Untagged ∧ 0 ∉ imap4Untagged := by decide
  have joined : List.intercalate [space] (replyWords line) = withoutCr line :=
    words_join true short
  have clean : ∀ word ∈ replyWords line, 0 ∉ word :=
    fun word member nul => noNul (mem_words member nul)
  have whole : 0 ∉ withoutCr line ++ crlf := by
    simp only [List.mem_append, not_or]
    exact ⟨fun nul => noNul (List.mem_filter.mp nul).1, by decide⟩
  rcases list : replyWords line with _ | ⟨w, _ | ⟨command, _ | ⟨info, rest⟩⟩⟩
  · simp [UntaggedLine, list] at untagged
  · have queue : lineQueue line = [] := by simp [lineQueue, list, lineTokens]
    exact iff_of_false (by simp [relayOf, queue, relay]) (by simp)
  · have queue : lineQueue line = [⟨command, tokenEol⟩] := by simp [lineQueue, list, lineTokens]
    exact iff_of_false (by simp [relayOf, queue, relay, queueToString]) (by simp)
  · obtain rfl : w = imap4Untagged := by simpa [UntaggedLine, list] using untagged
    rw [list] at clean
    have noNulCommand : 0 ∉ command := clean command (by simp)
    have second : List.intercalate [space] (command :: info :: rest) =
        command ++ space :: List.intercalate [space] (info :: rest) := intercalate_cons (by simp)
    have first : List.intercalate [space] (imap4Untagged :: command :: info :: rest) =
        imap4Untagged ++ space :: List.intercalate [space] (command :: info :: rest) :=
      intercalate_cons (by simp)
    have parts : withoutCr line = imap4Untagged ++ space ::
        (command ++ space :: List.intercalate [space] (info :: rest)) := by
      rw [← joined, list, first, second]
    have noNulInfo : 0 ∉ List.intercalate [space] (info :: rest) := by
      intro nul
      refine whole (List.mem_append_left _ ?_)
      rw [parts]
      simp [nul]
    have text : (imap4Untagged ++ space :: command) ++
        space :: (List.intercalate [space] (info :: rest) ++ crlf) = withoutCr line ++ crlf := by
      rw [parts]
      simp
    rw [relayOf_words list noNul]
    by_cases member : percent ∈ command
    · refine iff_of_false (fun message => ?_) ?_
      · split at message
        · cases message
        · have less := relayExpanded_percent star.1 star.2 noNulCommand member message
          rw [text] at less
          exact Nat.lt_irrefl _ less
      · rintro ⟨⟨command', info', rest', same, plain⟩, _⟩
        simp only [List.cons.injEq, true_and] at same
        exact plain (same.1 ▸ member)
    · have plain : Plain (imap4Untagged ++ space :: command) :=
        star.1.append (show Plain (space :: command) from
          (show Plain [space] by decide).append member)
      have noNulFront : 0 ∉ imap4Untagged ++ space :: command := by
        simp [star.2, noNulCommand, show (0 : Byte) ≠ space by decide]
      rw [relayExpanded_plain plain noNulFront noNulInfo, text]
      have length : (withoutCr line ++ crlf).length = (withoutCr line).length + 2 := by simp [crlf]
      have formatFits : (withoutCr line ++ crlf).length ≤ maxText →
          ¬ maxLineLength ≤ ((imap4Untagged ++ space :: command) ++
            space :: (bytes "%s" ++ crlf)).length := by
        rw [← text]
        have two : (bytes "%s").length = 2 := by decide
        simp only [List.length_append, List.length_cons, two, maxText, strWriteBufLen,
          maxLineLength]
        omega
      constructor
      · intro message
        refine ⟨⟨command, info, rest, rfl, member⟩, ?_⟩
        split at message
        · cases message
        · rw [← length]
          exact (relayText_exact whole).mp message
      · rintro ⟨_, fits⟩
        rw [← length] at fits
        rw [if_neg (formatFits fits)]
        exact (relayText_exact whole).mpr fits

/-! ## A round of a response -/

/-- The words of an untagged line. -/
theorem replyWords_untagged (text : List Byte) :
    replyWords (bytes "* " ++ text) = imap4Untagged :: replyWords text := by
  have star : bytes "* " = [42, 32] := by decide
  simp [star, replyWords, words, wordsFrom, show (42 : Byte) ≠ cr by decide,
    show (42 : Byte) ≠ space by decide, show space ≠ cr by decide,
    show (32 : Byte) = space by decide, show ¬ maxLineLength ≤ 1 by decide,
    show ((42 : Byte) == dquote) = false by decide, show imap4Untagged = [42] by decide]

theorem untaggedLine_star (text : List Byte) : UntaggedLine (bytes "* " ++ text) := by
  simp [UntaggedLine, replyWords_untagged]

/-- While `imap4_out_response` waits for a tagged line, the client receives this line as it is, and the
wait goes on with the bytes after it. -/
def LineRelayed (tag desired : Token) (capture : Option Capture) (fuel : Nat) (w : World)
    (line more : List Byte) : Prop :=
  (imap4OutResponseRound true (some tag) desired capture).Returns fuel w fun r t =>
    r.isLeft ∧ t.stream = more ∧ t.log.told = [(withoutCr line ++ crlf, true)]

/-- The line is read whole and its message can be sent as it is. -/
structure RelayedWhole (text : List Byte) (capture : Option Capture) (t : Talk) : Prop where
  /-- There is a third word, and the second has no percent sign. -/
  third : ∃ command info rest, replyWords text = command :: info :: rest ∧ percent ∉ command
  /-- The message fits the write buffer. -/
  short : (withoutCr (bytes "* " ++ text)).length + 2 ≤ maxText
  /-- The line fits the buffer of the response, where there is one. -/
  fits : Fits capture (bytes "* " ++ text)
  /-- The message is written. -/
  written : t.clientWrites.headD true = true

section Round

variable {tag desired : Token} {capture : Option Capture} {fuel : Nat} {w : World} {t : Talk}
  {text more : List Byte}

/-- A round is seen in the talk. -/
theorem lineRelayed_talk (talks : w.Talks w.trace.length t) (line : List Byte)
    (enough : t.stream.length < fuel) :
    LineRelayed tag desired capture fuel w line more ↔
      ∃ capture' t', t.round true (some tag) desired capture = .done (.inl capture') t' ∧
        t'.stream = more ∧ t'.log.told = [(withoutCr line ++ crlf, true)] := by
  have sends : (imap4OutResponseRound true (some tag) desired capture).Obeys
      (sending fun _ => True) fun _ => True := imap4OutResponseRound_sending _ _ _ _
  rw [LineRelayed, Exchange.returns_iff sends talks, Talk.run_round _ _ _ _ enough]
  constructor
  · rintro ⟨r, t', run, left, stream, told⟩
    cases r with
    | inl capture' => exact ⟨capture', t', run, stream, told⟩
    | inr r => cases left
  · rintro ⟨capture', t', run, stream, told⟩
    exact ⟨.inl capture', t', run, rfl, stream, told⟩

/-- A line that fits is relayed by a round exactly where its message is written. -/
theorem round_relayed {line : List Byte} {told : List (List Byte × Bool)}
    (stream : t.stream = line ++ lf :: more) (whole : lf ∉ line) (untagged : UntaggedLine line)
    (fits : Fits capture line) (silent : t.log.told = []) :
    (∃ capture' t', t.round true (some tag) desired capture = .done (.inl capture') t' ∧
      t'.stream = more ∧ t'.log.told = told) ↔
      ∃ content, relayOf t.stale line = .message content ∧ t.clientWrites.headD true = true ∧
        told = [(content, true)] := by
  have first : isUntagged (lineTag line) = true := (isUntagged_iff line).mpr untagged
  have same : relay (t.hearLine line).stale (lineTag line) (lineQueue line) =
    relayOf t.stale line := rfl
  have written (content : List Byte) :
      ((t.hearLine line).tell content).1 = t.clientWrites.headD true := rfl
  rw [Talk.round_line stream whole fits]
  simp only [Talk.answer, first, if_true, Talk.passOn, same]
  cases relay_ : relayOf t.stale line with
  | fault why => simp [Talk.relayed]
  | refused => simp [Talk.relayed]
  | message content =>
    simp only [Talk.relayed, Outcome.next_done, written, Relay.message.injEq]
    cases ok : t.clientWrites.headD true with
    | false => simp
    | true =>
      have left : (t.hearLine line).stream = more := Talk.hearLine_stream stream
      have log : ((t.hearLine line).tell content).2.log.told =
          [(content, t.clientWrites.headD true)] := by
        simp [Talk.tell, Talk.hearLine, Log.tell, Log.hear, silent]
      rw [ok] at log
      constructor
      · rintro ⟨capture', t', run, _, told_⟩
        simp only [if_true, Int.lt_irrefl, if_false, Outcome.done.injEq] at run
        rw [← told_, ← run.2, log]
        exact ⟨content, rfl, rfl, rfl⟩
      · rintro ⟨content', same, _, told_⟩
        subst same
        exact ⟨_, _, rfl, left, by rw [told_, log]⟩

/-- A line that fits is relayed as it is exactly where its message is that line and is written. -/
theorem lineRelayed_fits (talks : w.Talks w.trace.length t)
    (stream : t.stream = bytes "* " ++ text ++ lf :: more) (noLf : lf ∉ text) (noNul : 0 ∉ text)
    (short : (bytes "* " ++ text).length < maxLineLength) (enough : t.stream.length < fuel)
    (fits : Fits capture (bytes "* " ++ text)) :
    LineRelayed tag desired capture fuel w (bytes "* " ++ text) more ↔
      RelayedWhole text capture t := by
  have whole : lf ∉ bytes "* " ++ text := by simp [noLf, show lf ∉ bytes "* " by decide]
  have clean : 0 ∉ bytes "* " ++ text := by simp [noNul, show 0 ∉ bytes "* " by decide]
  have untagged := untaggedLine_star text
  have silent : t.log.told = [] := by rw [talks.log_start]; rfl
  rw [lineRelayed_talk talks _ enough, round_relayed stream whole untagged fits silent]
  constructor
  · rintro ⟨content, message, written, same⟩
    simp only [List.cons.injEq, Prod.mk.injEq, and_true] at same
    rw [← same, relayOf_exact untagged clean short, replyWords_untagged] at message
    obtain ⟨⟨command, info, rest, list, plain⟩, room⟩ := message
    exact ⟨⟨command, info, rest, (List.cons.inj list).2, plain⟩, room, fits, written⟩
  · rintro ⟨⟨command, info, rest, list, plain⟩, room, _, written⟩
    refine ⟨_, (relayOf_exact untagged clean short).mpr ⟨⟨command, info, rest, ?_, plain⟩, room⟩,
      written, rfl⟩
    rw [replyWords_untagged, list]

/-- A line that is cut is not relayed as it is: the response goes on with the rest of it. -/
theorem lineRelayed_cut (talks : w.Talks w.trace.length t)
    (stream : t.stream = bytes "* " ++ text ++ lf :: more) (noLf : lf ∉ text)
    (enough : t.stream.length < fuel) (cut : ¬ Fits capture (bytes "* " ++ text)) :
    ¬ LineRelayed tag desired capture fuel w (bytes "* " ++ text) more := by
  have whole : lf ∉ bytes "* " ++ text := by simp [noLf, show lf ∉ bytes "* " by decide]
  rw [lineRelayed_talk talks _ enough]
  rintro ⟨capture', t', run, rest, told⟩
  obtain ⟨n, q, capture₁, small, _, scanned⟩ := scanInto_cut lineFlag_imap4 0 more whole cut
  rw [Talk.round, stream, scanned] at run
  have length := congrArg List.length ((Talk.answer_again run).symm.trans rest)
  simp only [Talk.advance, List.length_append, List.length_drop, List.length_cons] at length small
  omega

/-- The client receives an untagged line as it is exactly where the line is read whole and its message
can be sent as it is. -/
theorem lineRelayed_iff (talks : w.Talks w.trace.length t)
    (stream : t.stream = bytes "* " ++ text ++ lf :: more) (noLf : lf ∉ text) (noNul : 0 ∉ text)
    (short : (bytes "* " ++ text).length < maxLineLength) (enough : t.stream.length < fuel) :
    LineRelayed tag desired capture fuel w (bytes "* " ++ text) more ↔
      RelayedWhole text capture t := by
  by_cases fits : Fits capture (bytes "* " ++ text)
  · exact lineRelayed_fits talks stream noLf noNul short enough fits
  · exact iff_of_false (lineRelayed_cut talks stream noLf enough fits)
      fun met => fits met.fits

end Round

/-- The line `* 5 EXISTS` is relayed. -/
theorem lineRelayed_exists :
    LineRelayed imap4TagCreate imap4OkToken none 13 (World.connected [bytes "* 5 EXISTS\r\n"])
      (bytes "* 5 EXISTS\r") [] := by
  have split : bytes "* 5 EXISTS\r" = bytes "* " ++ bytes "5 EXISTS\r" := by decide
  rw [split]
  refine (lineRelayed_iff (World.connected_talks _) (by decide) (by decide) (by decide) (by decide)
    (by decide)).mpr ⟨⟨bytes "5", bytes "EXISTS", [], by decide, by decide⟩, by decide, ?_, rfl⟩
  exact fun c none_ => by cases none_

/-- The line `* 50% FULL` is not relayed: its second word is taken for a conversion. -/
theorem lineRelayed_percent :
    ¬ LineRelayed imap4TagCreate imap4OkToken none 13 (World.connected [bytes "* 50% FULL\r\n"])
      (bytes "* 50% FULL\r") [] := by
  have split : bytes "* 50% FULL\r" = bytes "* " ++ bytes "50% FULL\r" := by decide
  rw [split, lineRelayed_fits (World.connected_talks _) (by decide) (by decide) (by decide)
    (by decide) (by decide) fun c none_ => by cases none_]
  rintro ⟨⟨command, info, rest, list, plain⟩, _⟩
  have second : command = bytes "50%" := by
    have words_ : replyWords (bytes "50% FULL\r") = [bytes "50%", bytes "FULL"] := by decide
    rw [words_] at list
    exact (List.cons.inj list).1.symm
  exact plain (by rw [second]; decide)

end Perdition
