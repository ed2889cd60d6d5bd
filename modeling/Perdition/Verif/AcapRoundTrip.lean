import Perdition.Verif.Listing
import Perdition.Verif.Quoted
import Perdition.Verif.SieveWriting

/-!
# Sending and reading ACAP strings

`acap_from_str` sends a string as it is, between quotes or as a literal. Between quotes the tokeniser
splits it at spaces that its own quotes expose, and `acap_token_wrapper` neither knows how to undo an
escape nor takes a text that needs one; a literal is taken as far as the buffer of the tokeniser goes.
-/
namespace Perdition

open Lib Program

/-! ## The wire -/

/-- A string on the wire at the end of its line: its header and, for a literal, its body. -/
def acapWire (acap : Acap) : List Byte :=
  acap.a.content ++ crlf ++ match acap.b with
    | none => []
    | some body => body.content ++ crlf

/-- A word that may stand in a line before others. -/
structure FrontWord where
  /-- The word. -/
  content : List Byte
  /-- No space outside quotes and no line end is in it. -/
  kept : Kept false content
  /-- Its quotes are closed. -/
  closed : quotedAfter false content = false
  /-- It fits a token. -/
  short : content.length < maxLineLength

/-- Words on the wire, each with a space after it. -/
def frontWire (front : List FrontWord) : List Byte := front.flatMap fun w => w.content ++ [space]

/-- The string of a line that is read by `read_line`, after so many words. -/
def acapReadLast (platform : Platform) (count : Nat) : Dialogue (Option AcapTokenWrapperStatus) := do
  match ← readLine none tokenImap4 0 with
  | none => return none
  | some (q, _) => return some (← acapTokenWrapper platform (q.drop count))

/-- The run returned this string as the value of a string token. -/
def ReadAs (s : CString) (outcome : Outcome Channel Fault (Option AcapTokenWrapperStatus)) : Prop :=
  ∃ type q after, outcome = .done (some ⟨0, type, q, some s⟩) after ∧ type ≠ .atom ∧ type ≠ .err

/-- The words in front are tokens of their own. -/
theorem scanLine_front (m : Nat) (front : List FrontWord) (stream : List Byte) :
    scanLine tokenImap4 m (frontWire front ++ stream) =
      (scanLine tokenImap4 m stream).map fun read =>
        (front.map (fun w => ⟨w.content, tokenNone⟩) ++ read.1, read.2) := by
  induction front with
  | nil => simp [frontWire]
  | cons w front ih =>
    have whole : frontWire (w :: front) ++ stream =
        w.content ++ space :: (frontWire front ++ stream) := by simp [frontWire]
    rw [whole, scanLine_word w.kept w.closed w.short, ih, Option.map_map]
    rfl

/-- What is read is decided by the tokens of the last string. -/
theorem run_acapReadLast (platform : Platform) (front : List FrontWord) {fuel : Nat} {ch : Channel}
    {stream rest : List Byte} {q : Queue} (left : ch.stream = frontWire front ++ stream)
    (enough : ch.stream.length < fuel)
    (scanned : scanLine tokenImap4 0 stream = some (q, rest)) :
    ∃ middle : Channel, middle.stream = rest ∧
      (acapReadLast platform front.length).run Channel.step fuel ch =
        ((acapTokenWrapper platform q).run Channel.step fuel middle).next fun w after =>
          .done (some w) after := by
  have ⟨middle, run, here⟩ := readLine_streamed ch.streamed
    (show tokenImap4.has tokenImap4Literal = false by decide) 0 (.refl ch) enough
  rw [left, scanLine_front, scanned] at run here
  refine ⟨middle, here.stream, ?_⟩
  have dropped : (front.map (fun w => (⟨w.content, tokenNone⟩ : Token)) ++ q).drop front.length =
      q := by
    have count : front.length =
        (front.map fun w => (⟨w.content, tokenNone⟩ : Token)).length := by simp
    rw [count, List.drop_left]
  rw [acapReadLast, run_bind, run]
  simp only [Option.map_some, Outcome.next_done, dropped]
  rw [run_bind]
  rfl

/-! ## Between quotes -/

/-- No space ends a word exactly where before every space a quote is open. -/
theorem openAfter_isSome (text : List Byte) : ∀ quoted : Bool,
    (openAfter true quoted text).isSome ↔ ∀ front back, text = front ++ space :: back →
      front.count dquote % 2 = if quoted then 0 else 1 := by
  induction text with
  | nil => exact fun quoted => ⟨fun _ front back none_ => by simp at none_, fun _ => rfl⟩
  | cons b text ih =>
    intro quoted
    rw [openAfter]
    by_cases splits : b = space ∧ !quoted
    · rw [if_pos splits]
      refine ⟨fun some_ => absurd some_ Bool.false_ne_true, fun counts => ?_⟩
      have first := counts [] text (by rw [splits.1]; rfl)
      have closed : quoted = false := by simpa using splits.2
      rw [closed] at first
      exact absurd first (by decide)
    · rw [if_neg splits, ih]
      have shift (front : List Byte) : (b :: front).count dquote =
          front.count dquote + if b = dquote then 1 else 0 := by
        rw [List.count_cons]
        simp
      constructor
      · intro counts front back whole
        cases front with
        | nil =>
          have blank : b = space := (List.cons.inj whole).1
          have opened : quoted = true := by simpa [blank] using splits
          simp [opened]
        | cons c front =>
          obtain ⟨same, others⟩ := List.cons.inj whole
          have count := counts front back others
          rw [← same, shift]
          by_cases quote : b = dquote
          · cases quoted <;> simp [quote] at count ⊢ <;> omega
          · cases quoted <;> simp [quote] at count ⊢ <;> omega
      · intro counts front back whole
        have count := counts (b :: front) back (by rw [whole]; rfl)
        rw [shift] at count
        by_cases quote : b = dquote
        · cases quoted <;> simp [quote] at count ⊢ <;> omega
        · cases quoted <;> simp [quote] at count ⊢ <;> omega

theorem openAfter_append (quotes : Bool) (front back : List Byte) : ∀ quoted : Bool,
    openAfter quotes quoted (front ++ back) =
      (openAfter quotes quoted front).bind fun after => openAfter quotes after back := by
  induction front with
  | nil => exact fun _ => rfl
  | cons b front ih =>
    intro quoted
    rw [List.cons_append, openAfter, openAfter]
    split
    · rfl
    · exact ih _

/-- A text between quotes is a word exactly where every space has an even count of quotes before
it. -/
theorem openAfter_quotes (text : List Byte) :
    (openAfter true false (dquote :: (text ++ [dquote]))).isSome ↔ SpacesQuoted text := by
  have first : openAfter true false (dquote :: (text ++ [dquote])) =
      openAfter true true (text ++ [dquote]) := by
    rw [openAfter, if_neg (by decide)]
    rfl
  have last (after : Bool) : (openAfter true after [dquote]).isSome := by
    cases after <;> decide
  have same : (openAfter true true text).isSome ↔ ∀ front back, text = front ++ space :: back →
      front.count dquote % 2 = 0 := openAfter_isSome text true
  rw [first, openAfter_append, SpacesQuoted, ← same]
  cases openAfter true true text with
  | none => rfl
  | some after => simp [last]

/-- A first word that begins with a quote is read as the string exactly where it is all of it and is
accepted. -/
theorem readAs_word {platform : Platform} {s : CString} {text : List Byte} (flag : Flag) (q : Queue)
    (fuel : Nat) (ch : Channel) (begins : text <+: s.content ++ [dquote]) :
    ReadAs s (((acapTokenWrapper platform (⟨dquote :: text, flag⟩ :: q)).run Channel.step fuel
      ch).next fun w after => .done (some w) after) ↔
      text = s.content ++ [dquote] ∧ acapStrnIsQuoted platform (dquote :: text) = true := by
  rw [acapTokenWrapper, acapTokenStatus_quote]
  by_cases accepted : acapStrnIsQuoted platform (dquote :: text) = true
  · rw [if_pos accepted]
    have value : strnToStr ((dquote :: text).drop 1) ((Token.mk (dquote :: text) flag).len - 2) =
        cstr (text.take (text.length - 1)) := by
      simp [strnToStr, Token.len]
    rw [value]
    constructor
    · rintro ⟨type, q', after, same, _⟩
      injection same with same
      injection same with same
      injection same with _ _ _ same
      have string : cstr (text.take (text.length - 1)) = s := Option.some.inj same
      have shorter := cstr_length_le (text.take (text.length - 1))
      rw [string, List.length_take] at shorter
      have long := begins.length_le
      rw [List.length_append, List.length_singleton] at long
      have filled : 2 ≤ (dquote :: text).length := by
        simp only [acapStrnIsQuoted, Bool.and_eq_true, decide_eq_true_eq] at accepted
        exact accepted.1.1.1.1
      rw [List.length_cons] at filled
      refine ⟨begins.eq_of_length ?_, accepted⟩
      rw [List.length_append, List.length_singleton]
      change s.content.length ≤ _ at shorter
      omega
    · rintro ⟨whole, _⟩
      have string : cstr (text.take (text.length - 1)) = s := by
        rw [whole]
        simp
      rw [string]
      exact ⟨.quoted, queueOrNull q, ch, rfl, by decide, by decide⟩
  · rw [if_neg accepted]
    constructor
    · rintro ⟨type, q', after, same, _⟩
      injection same with same
      injection same with same
      injection same with no
      exact absurd no (by decide)
    · exact fun both => absurd both.2 accepted

/-- A string without line ends is returned exactly where it fits with its quotes, is accepted between
them, and every space has an even count of quotes before it. -/
theorem quoted_readAs {platform : Platform} {s : CString} (noCr : cr ∉ s.content)
    (noLf : lf ∉ s.content) (front : List FrontWord) {fuel : Nat} {ch : Channel} {rest : List Byte}
    (left : ch.stream = frontWire front ++ (dquote :: (s.content ++ [dquote]) ++ crlf ++ rest))
    (enough : ch.stream.length < fuel) :
    ReadAs s ((acapReadLast platform front.length).run Channel.step fuel ch) ↔
      acapStrnIsQuoted platform (dquote :: (s.content ++ [dquote])) = true ∧
        SpacesQuoted s.content := by
  have quote : dquote ≠ cr ∧ dquote ≠ lf ∧ lf ≠ cr := by decide
  have noCr' : cr ∉ dquote :: (s.content ++ [dquote]) := by simp [noCr, quote.1.symm]
  have whole : lf ∉ dquote :: (s.content ++ [dquote]) ++ [cr] := by
    simp [noLf, quote.2.1.symm, quote.2.2]
  have scanned := scanLine_line lineFlag_imap4 0 rest whole
  rw [show tokenImap4.has tokenImap4 = true by decide] at scanned
  have stream : dquote :: (s.content ++ [dquote]) ++ crlf ++ rest =
      dquote :: (s.content ++ [dquote]) ++ [cr] ++ lf :: rest := by simp [crlf]
  rw [stream] at left
  obtain ⟨middle, _, run⟩ := run_acapReadLast platform front left enough scanned
  rw [run]
  have spaces := openAfter_quotes s.content
  have last (short : (dquote :: (s.content ++ [dquote])).length < maxLineLength) :=
    words_last true noCr' short
  generalize word : dquote :: (s.content ++ [dquote]) = w at scanned run spaces last noCr' ⊢
  cases split : words true (w ++ [cr]) with
  | nil => exact absurd split (wordsFrom_ne_nil _ _ _ _)
  | cons v others =>
    obtain ⟨flag, q, tokens⟩ : ∃ flag q, lineTokens (v :: others) = ⟨v, flag⟩ :: q := by
      cases others with
      | nil => exact ⟨tokenEol, [], rfl⟩
      | cons next others => exact ⟨tokenNone, lineTokens (next :: others), rfl⟩
    rw [split] at last
    have starts : [dquote] <+: v := by
      refine wordsFrom_prefix true (s.content ++ [dquote] ++ [cr]) [dquote] true v ?_
      have same : wordsFrom true [dquote] true (s.content ++ [dquote] ++ [cr]) =
          words true (w ++ [cr]) := by
        rw [← word]
        rfl
      rw [same, split]
      rfl
    have begins : v <+: w := by
      have inside := wordsFrom_begins true (w ++ [cr]) [] false v (by
        rw [← words, split]
        rfl)
      have plain : withoutCr (w ++ [cr]) = w := by
        rw [withoutCr, List.filter_append, List.filter_eq_self.mpr]
        · simp
        · intro b member
          have other : b ≠ cr := fun same => noCr' (same ▸ member)
          simpa using other
      rwa [List.nil_append, plain] at inside
    obtain ⟨text, same⟩ := starts
    rw [List.singleton_append] at same
    rw [← same, ← word] at begins
    rw [tokens, ← same, readAs_word flag q fuel middle (List.cons_prefix_cons.mp begins).2]
    rw [← same] at last
    have framed : text = s.content ++ [dquote] ↔ dquote :: text = w := by
      rw [← word]
      simp
    rw [framed]
    constructor
    · rintro ⟨all, accepted⟩
      rw [all] at accepted last
      refine ⟨accepted, spaces.mp ?_⟩
      have short : w.length < maxLineLength := by
        simp only [acapStrnIsQuoted, Bool.and_eq_true, decide_eq_true_eq] at accepted
        have fits := accepted.1.1.1.2
        simp only [maxLineLength]
        omega
      by_contra ended
      exact (last short).2 (by simpa using ended) rfl
    · rintro ⟨accepted, quoted⟩
      have short : w.length < maxLineLength := by
        simp only [acapStrnIsQuoted, Bool.and_eq_true, decide_eq_true_eq] at accepted
        have fits := accepted.1.1.1.2
        simp only [maxLineLength]
        omega
      have all := (List.cons.inj ((last short).1 (spaces.mpr quoted))).1
      exact ⟨all, all ▸ accepted⟩

/-! ## Literals -/

/-- A token is no longer than the buffer it is read into. -/
theorem tokenRead_short (capture : Option Nat) (flag : Flag) (m : Nat) :
    (tokenRead capture flag m).Obeys Contract.any
      fun read => ∀ t literal, read = some (t, literal) → t.len ≤ maxLineLength := by
  have step (state : ReadState) (c : Byte) (room : state.buffer.length < maxLineLength) :
      (tokenStep capture.isSome flag m state c).buffer.length ≤ maxLineLength := by
    have longer := (tokenStep_buffer capture.isSome flag m state c).length_le
    rw [List.length_append, List.length_singleton] at longer
    omega
  refine obeys_loop (fun state => state.buffer.length ≤ maxLineLength) (by decide)
    fun state short => ?_
  unfold tokenReadRound
  refine obeys_ite (fun _ => ?_) fun room => ?_
  · intro t literal same
    rw [← (Prod.mk.inj (Option.some.inj same)).1]
    exact short
  · refine obeys_bind_any fun read => ?_
    cases read with
    | none =>
      intro t literal none_
      cases none_
    | some c =>
      have open_ : state.buffer.length < maxLineLength := by
        simp only [ReadState.full, Bool.or_eq_true, decide_eq_true_eq, not_or, not_le] at room
        exact room.2
      have kept := step state c open_
      dsimp only
      split
      · rename_i next more
        rw [more] at kept
        exact kept
      · rename_i next flag' stop
        rw [stop] at kept
        intro t literal same
        rw [← (Prod.mk.inj (Option.some.inj same)).1]
        exact kept

/-- A quoted string is accepted as one. -/
theorem acapTokenStatus_quoted {platform : Platform} {t : Token}
    (status : (acapTokenStatus platform t).1 = .quoted) : acapStrnIsQuoted platform t.buf = true := by
  unfold acapTokenStatus at status
  split at status
  · cases status
  split at status
  · split at status
    · cases status
    · split at status
      · assumption
      · cases status
  split at status
  · cases status
  split at status
  · cases status
  dsimp only at status
  split_ifs at status

/-- The value of a token that is neither an atom nor begins with a quote is a literal, as far as the
buffer goes. -/
theorem acapTokenWrapper_value (platform : Platform) (t : Token) (q : Queue) :
    (acapTokenWrapper platform (t :: q)).Obeys Contract.any fun w => ∀ v, w.str = some v →
      w.type = .atom ∨ t.buf.head? = some dquote ∨ v.length ≤ maxLineLength := by
  have literal (len : Nat) (type : AcapType) : (acapTokenWrapperLiteral t len type).Obeys
      Contract.any fun w => ∀ v, w.str = some v → v.length ≤ maxLineLength := by
    unfold acapTokenWrapperLiteral
    have unread (v : CString) (none_ : none = some v) : v.length ≤ maxLineLength :=
      absurd none_.symm (Option.some_ne_none v)
    refine obeys_ite (fun _ => unread) fun _ => obeys_ite (fun _ v same => ?_) fun _ => ?_
    · rw [← Option.some.inj same]
      exact Nat.zero_le _
    · refine obeys_bind.mpr (obeys_mono (tokenRead_short _ _ _) fun read short => ?_)
      cases read with
      | none => exact unread
      | some read =>
        obtain ⟨t, captured⟩ := read
        dsimp only
        rw [tokenToString_noStrip]
        refine obeys_bind_any fun line => ?_
        split
        · exact unread
        · split
          · exact unread
          · refine obeys_ite (fun _ => unread) fun _ v same => ?_
            rw [← Option.some.inj same]
            exact (cstr_length_le t.buf).trans (short t captured rfl)
  rw [acapTokenWrapper]
  split
  · intro v none_
    cases none_
  · exact fun _ _ => .inl rfl
  · rename_i status
    refine fun v _ => .inr (.inl ?_)
    have quoted := acapTokenStatus_quoted (congrArg Prod.fst status)
    simp only [acapStrnIsQuoted, Bool.and_eq_true, decide_eq_true_eq] at quoted
    exact quoted.1.1.2
  · exact obeys_mono (literal _ _) fun w short v same => .inr (.inr (short v same))

/-- A literal that fits the buffer of the tokeniser is read back. -/
theorem run_literalBack {s : CString} (filled : s.content ≠ [])
    (short : s.length ≤ maxLineLength) {t : Token} (ends : t.isEol = true) (type : AcapType)
    {fuel : Nat} {ch : Channel} {rest : List Byte} (left : ch.stream = s.content ++ crlf ++ rest)
    (enough : ch.stream.length < fuel) :
    ∃ after, (acapTokenWrapperLiteral t s.length type).run Channel.step fuel ch =
      .done ⟨0, type, none, some s⟩ after := by
  have positive : 1 ≤ s.length := List.length_pos_iff.mpr filled
  have taken : literalTaken s.length = s.content.length := Nat.min_eq_left short
  have ⟨middle, token, here⟩ := tokenRead_literal positive ch enough
  have long : literalTaken s.length ≤ ch.stream.length := by
    rw [taken, left, List.append_assoc, List.length_append]
    omega
  rw [if_neg (by omega)] at token
  have behind := here long
  rw [taken, left, List.append_assoc, List.drop_left] at behind
  have ⟨after, line, _⟩ := readLine_streamed middle.streamed
    (show tokenPop3.has tokenImap4Literal = false by decide) 0 (.refl middle)
    (show middle.stream.length < fuel by
      have shorter := congrArg List.length behind
      rw [left, List.append_assoc, List.length_append] at enough
      omega)
  rw [behind, show crlf ++ rest = [cr] ++ lf :: rest from rfl,
    scanLine_line lineFlag_pop3 0 rest (by decide)] at line
  refine ⟨after, ?_⟩
  rw [acapTokenWrapperLiteral, if_neg (by simp [ends]), if_neg (by omega), run_bind, token]
  simp only [Outcome.next_done, tokenToString_noStrip]
  rw [run_bind, line, taken, left, List.append_assoc, List.take_left, cstr_self]
  rfl

/-- A string with a line end is returned exactly where the buffer of the tokeniser holds it. -/
theorem literal_readAs {platform : Platform} {s : CString} (broken : s.Broken) (plus : Bool)
    (front : List FrontWord) {fuel : Nat} {ch : Channel} {rest : List Byte}
    (left : ch.stream = frontWire front ++
      (literalHeader plus s.length ++ crlf ++ (s.content ++ crlf) ++ rest))
    (enough : ch.stream.length < fuel) :
    ReadAs s ((acapReadLast platform front.length).run Channel.step fuel ch) ↔
      s.length ≤ maxLineLength := by
  have noLf : lf ∉ literalHeader plus s.length ++ [cr] := by
    have inside : lf ∉ literalHeader plus s.length := fun member => (mem_header member).2.1 rfl
    simp [inside, show lf ≠ cr by decide]
  have scanned := scanLine_line lineFlag_imap4 0 (s.content ++ crlf ++ rest) noLf
  rw [show tokenImap4.has tokenImap4 = true by decide] at scanned
  have stream : literalHeader plus s.length ++ crlf ++ (s.content ++ crlf) ++ rest =
      literalHeader plus s.length ++ [cr] ++ lf :: (s.content ++ crlf ++ rest) := by simp [crlf]
  rw [stream] at left
  obtain ⟨middle, here, run⟩ := run_acapReadLast platform front left enough scanned
  rw [run]
  constructor
  · rintro ⟨type, q, after, same, notAtom, _⟩
    obtain ⟨w, after', wrapped, value⟩ := Outcome.next_eq_done.mp same
    injection value with value _
    have value := Option.some.inj value
    cases tokens : lineTokens (words true (literalHeader plus s.length ++ [cr])) with
    | nil =>
      have buffers := lineTokens_buf (words true (literalHeader plus s.length ++ [cr]))
      rw [tokens] at buffers
      exact absurd buffers.symm (wordsFrom_ne_nil _ _ _ _)
    | cons t others =>
      rw [tokens] at wrapped
      have kinds := run_returns (acapTokenWrapper_value platform t others) wrapped s (by rw [value])
      rw [value] at kinds
      have brace : t.buf.head? ≠ some dquote := by
        have first : t.buf ∈ (words true (literalHeader plus s.length ++ [cr])).head? := by
          rw [← lineTokens_buf (words true _), tokens]
          rfl
        have starts := wordsFrom_prefix true _ [123] false t.buf first
        obtain ⟨text, same⟩ := starts
        rw [← same, List.cons_append, List.head?_cons]
        decide
      exact (kinds.resolve_left notAtom).resolve_left brace
  · intro short
    have filled : s.content ≠ [] := by
      intro none_
      rcases broken with has | has <;> exact absurd (none_ ▸ has) (by simp)
    rw [Sieve.tokens_header true plus short,
      acapTokenWrapper_header platform plus (by simp only [maxLineLength] at short; omega)]
    have shorter : middle.stream.length < fuel := by
      have longer := congrArg List.length left
      rw [here]
      simp only [List.length_append, List.length_cons] at longer ⊢
      omega
    obtain ⟨after, back⟩ := run_literalBack filled short (Token.isEol_eol (literalHeader plus s.length))
      (literalType plus) here shorter
    rw [back]
    exact ⟨literalType plus, none, after, rfl, by cases plus <;> decide, by cases plus <;> decide⟩

/-! ## The result -/

/-- A string comes back: with a line end, it fits the buffer of the tokeniser; without one, it fits
with its quotes, its own quotes expose no space, and it is a text that is taken between quotes where
`char` is signed, or where it is not. -/
def AcapReturned (platform : Platform) (s : CString) : Prop :=
  if s.Broken then s.length ≤ maxLineLength
  else s.length ≤ 1022 ∧ SpacesQuoted s.content ∧
    Sequence (if platform.charSigned then LooseChar else UnsignedChar) s.content

theorem acapStrnIsQuoted_sequence (platform : Platform) (content : List Byte) :
    acapStrnIsQuoted platform (dquote :: (content ++ [dquote])) = true ↔ content.length ≤ 1022 ∧
      Sequence (if platform.charSigned then LooseChar else UnsignedChar) content := by
  cases signed : platform.charSigned with
  | true => exact accepted_signed signed content
  | false => exact accepted_unsigned signed content

/-- A string that `acap_from_str` makes is read as it was by `acap_token_wrapper` exactly where it comes
back: whatever words are before it in its line, whatever follows the line, and for which side it was
made. -/
theorem acapFromStr_read_iff (platform : Platform) (s : CString) (flag : Flag)
    (front : List FrontWord) {fuel : Nat} {ch : Channel} {rest : List Byte}
    (left : ch.stream = frontWire front ++ acapWire (acapFromStr s flag) ++ rest)
    (enough : ch.stream.length < fuel) :
    ReadAs s ((acapReadLast platform front.length).run Channel.step fuel ch) ↔
      AcapReturned platform s := by
  unfold AcapReturned
  by_cases broken : s.Broken
  · rw [if_pos broken]
    have ⟨header, body⟩ := acapFromStr_broken broken flag
    rw [acapWire, header, body, List.append_assoc (frontWire front)] at left
    exact literal_readAs broken _ front left enough
  · rw [if_neg broken]
    have ⟨quoted, none_⟩ := acapFromStr_quoted broken flag
    have ⟨noCr, noLf⟩ := not_or.mp broken
    rw [acapWire, quoted, none_, List.append_assoc (frontWire front), List.append_nil] at left
    rw [quoted_readAs noCr noLf front left enough, acapStrnIsQuoted_sequence, and_assoc,
      and_comm (b := SpacesQuoted s.content)]
    rfl

/-- Two lines come back as a literal. -/
theorem acapFromStr_read_lines : ReadAs (lit "a\r\nb")
    ((acapReadLast Platform.sample 0).run Channel.step 20
      (Channel.reading [acapWire (acapFromStr (lit "a\r\nb") perditionServer)])) :=
  (acapFromStr_read_iff Platform.sample (lit "a\r\nb") perditionServer []
    (Channel.stream_reading (by decide)) (by decide)).mpr (by
      rw [AcapReturned, if_pos (by decide)]
      decide)

/-- A double quote is sent as it is and not read back. -/
theorem acapFromStr_read_quote : ¬ ReadAs (lit "a\"b")
    ((acapReadLast Platform.sample 0).run Channel.step 20
      (Channel.reading [acapWire (acapFromStr (lit "a\"b") perditionServer)])) := by
  have stream : (Channel.reading [acapWire (acapFromStr (lit "a\"b") perditionServer)]).stream =
      frontWire [] ++ (dquote :: ((lit "a\"b").content ++ [dquote]) ++ crlf ++ []) :=
    (Channel.stream_reading (by decide)).trans (by decide)
  intro read
  have accepted := ((quoted_readAs (by decide) (by decide) [] stream (by decide)).mp read).1
  exact absurd accepted (by decide)

end Perdition
