import Perdition.Acap
import Perdition.Imap4In
import Perdition.Verif.Streams

/-!
# Literals in the stream

`token_read` takes an announced literal from the stream in one piece as long as its buffer holds it.
A literal that is longer fills the buffer, and what is left of it is read as the rest of the line.
-/
namespace Perdition

open Lib Program

/-- The bytes that `token_read` takes for a literal of so many. -/
def literalTaken (m : Nat) : Nat := min m maxLineLength

/-- `token_read` of a literal from any of its states. -/
theorem scanToken_imap4Literal (m : Nat) (stream : List Byte) :
    ∀ state : ReadState, state.buffer.length < literalTaken m →
      scanToken none tokenImap4Literal m state stream =
        if stream.length < literalTaken m - state.buffer.length then none
        else some ((⟨state.buffer ++ stream.take (literalTaken m - state.buffer.length), tokenNone⟩,
          state.literal), stream.drop (literalTaken m - state.buffer.length)) := by
  induction stream with
  | nil =>
    intro state short
    have room : state.full none = false := by
      simp only [ReadState.full, Bool.false_or, decide_eq_false_iff_not, not_le]
      exact short.trans_le (min_le_right _ _)
    rw [scanToken, room, if_neg (by simp), if_pos (by simp only [List.length_nil]; omega)]
  | cons c stream ih =>
    intro state short
    have room : state.full none = false := by
      simp only [ReadState.full, Bool.false_or, decide_eq_false_iff_not, not_le]
      exact short.trans_le (min_le_right _ _)
    have literal : tokenImap4Literal.has tokenImap4Literal := by decide
    obtain ⟨left, again⟩ : ∃ left, literalTaken m - state.buffer.length = left + 1 :=
      ⟨_, (Nat.succ_pred_eq_of_pos (by omega)).symm⟩
    rw [scanToken_cons _ _ (by simp [room]), again]
    simp only [tokenStep, Option.isSome_none, Bool.false_eq_true, if_false, literal, if_true,
      List.length_append, List.length_cons, List.length_nil, Nat.zero_add,
      Nat.add_lt_add_iff_right, List.take_succ_cons, List.drop_succ_cons]
    by_cases ends : m ≤ state.buffer.length + 1
    · obtain rfl : left = 0 := by simp only [literalTaken] at again short; omega
      simp [if_pos ends]
    · rw [if_neg ends]
      dsimp only
      by_cases filled : state.buffer.length + 1 < maxLineLength
      · rw [ih _ (by simp only [List.length_append, List.length_singleton, literalTaken]; omega)]
        have same : literalTaken m - (state.buffer ++ [c]).length = left := by
          simp only [List.length_append, List.length_singleton]; omega
        simp only [same, List.append_assoc, List.singleton_append]
      · obtain rfl : left = 0 := by simp only [literalTaken] at again short; omega
        rw [scanToken_full _ (by simp [ReadState.full]; omega)]
        simp

/-- `token_read` of a literal takes what its buffer holds of it, where the stream has that much. -/
theorem scanToken_literalStart {m : Nat} (positive : 1 ≤ m) (stream : List Byte) :
    scanToken none tokenImap4Literal m .start stream =
      if stream.length < literalTaken m then none
      else some ((⟨stream.take (literalTaken m), tokenNone⟩, []),
        stream.drop (literalTaken m)) := by
  have short : ReadState.start.buffer.length < literalTaken m := by
    simp only [ReadState.start, List.length_nil, literalTaken, maxLineLength]; omega
  exact scanToken_imap4Literal m stream .start short

/-! ## Framing -/

/-- A literal of so many bytes was taken from the stream in one piece: the token holds exactly them,
and they are not read again. Or reading it failed. -/
def LiteralTaken (m : Nat) (before : Channel) : Outcome Channel Fault (Option Token) → Prop
  | .done (some t) after => t.len = m ∧ before.stream = t.buf ++ after.stream
  | .done none _ => True
  | _ => False

/-- The rest of the line that follows a literal of so many bytes is what was read after it, and the
string is the literal where the line is as it should be. Or reading failed. -/
def LiteralLine (m : Nat) (before : Channel) :
    Outcome Channel Fault AcapTokenWrapperStatus → Prop
  | .done w after => w.status = -2 ∨
      (∃ line, scanLine tokenPop3 0 (before.stream.drop m) = some (line, after.stream)) ∧
        (w.status = 0 → w.str = some (cstr (before.stream.take m)))
  | _ => False

/-- The literal of so many bytes at the start of a stream is never read as anything else: not by
`token_read`, not by IMAP for an argument that announces it, and not by ManageSieve. -/
structure LiteralFramed (m fuel : Nat) (ch : Channel) : Prop where
  /-- `token_read`. -/
  token : LiteralTaken m ch ((do return (← tokenRead none tokenImap4Literal m).map (·.1) :
    Dialogue (Option Token)).run Channel.step fuel ch)
  /-- `imap4_token_wrapper`. -/
  imap4 : ∀ platform t synchronising,
    imap4TokenIsLiteral platform t = some (.literal synchronising m) →
    LiteralTaken m ch ((do return (← imap4TokenWrapper platform [] t).map (·.2) :
      Dialogue (Option Token)).run Channel.step fuel ch)
  /-- `acap_token_wrapper`. -/
  acap : ∀ platform t q type, type = .sychronisingLiteral ∨ type = .nonSychronisingLiteral →
    acapTokenStatus platform t = (type, m) →
    LiteralLine m ch ((acapTokenWrapper platform (t :: q)).run Channel.step fuel ch)

/-- The literal fits the buffer of `token_read`, or the stream ends before the buffer is full. -/
def LiteralFits (m : Nat) (ch : Channel) : Prop :=
  m ≤ maxLineLength ∨ ch.stream.length < maxLineLength

/-- A run that reads as `token_read` does for a literal takes it in one piece exactly when it fits. -/
theorem literalTaken_iff {m : Nat} {ch : Channel} {outcome : Outcome Channel Fault (Option Token)}
    (reads : ∃ after, outcome = .done (if ch.stream.length < literalTaken m then none
      else some ⟨ch.stream.take (literalTaken m), tokenNone⟩) after ∧
      (literalTaken m ≤ ch.stream.length → after.stream = ch.stream.drop (literalTaken m))) :
    LiteralTaken m ch outcome ↔ LiteralFits m ch := by
  obtain ⟨after, rfl, rest⟩ := reads
  by_cases short : ch.stream.length < literalTaken m
  · rw [if_pos short]
    refine iff_of_true trivial ?_
    simp only [LiteralFits, literalTaken] at *
    omega
  · have long : literalTaken m ≤ ch.stream.length := Nat.le_of_not_lt short
    rw [if_neg short]
    simp only [LiteralTaken, Token.len, List.length_take, Nat.min_eq_left long, rest long,
      List.take_append_drop, and_true]
    simp only [LiteralFits, literalTaken] at *
    omega

/-- `token_read` of a literal on a channel. -/
theorem tokenRead_literal {m fuel : Nat} (positive : 1 ≤ m) (ch : Channel)
    (enough : ch.stream.length < fuel) :
    ∃ after, (tokenRead none tokenImap4Literal m).run Channel.step fuel ch =
      .done (if ch.stream.length < literalTaken m then none
        else some (⟨ch.stream.take (literalTaken m), tokenNone⟩, [])) after ∧
      (literalTaken m ≤ ch.stream.length → after.stream = ch.stream.drop (literalTaken m)) := by
  obtain ⟨after, run, left⟩ := tokenRead_streamed ch.streamed none tokenImap4Literal m (.refl ch)
    enough
  rw [scanToken_literalStart positive] at run left
  refine ⟨after, ?_, fun long => ?_⟩
  · rw [run]
    split <;> rfl
  · rw [if_neg (Nat.not_lt.mpr long)] at left
    exact left.stream

/-- The answer to a synchronising literal. -/
theorem imap4Continue_send :
    imap4WriteStr nullFlag (some ⟨bytes "+", tokenNone⟩) (some (lit "OK"))
      (some (lit "ready for additional input")) =
        send (bytes "+ OK ready for additional input" ++ crlf) :=
  imap4WriteStr_argument (by decide) (by decide) (by decide) (by decide) (by decide)

/-- `imap4_token_wrapper` reads a literal after it has answered for it. -/
theorem imap4TokenWrapper_literal {platform : Platform} {t : Token} {synchronising : Bool}
    {m fuel : Nat} (positive : 1 ≤ m) (ch : Channel) (enough : ch.stream.length < fuel)
    (announced : imap4TokenIsLiteral platform t = some (.literal synchronising m)) :
    ∃ after, (imap4TokenWrapper platform [] t).run Channel.step fuel ch =
      .done (if ch.stream.length < literalTaken m then none
        else some (if synchronising then .synchronising else .nonSynchronising,
          ⟨ch.stream.take (literalTaken m), tokenNone⟩)) after ∧
      (literalTaken m ≤ ch.stream.length → after.stream = ch.stream.drop (literalTaken m)) := by
  have nonzero : m ≠ 0 := by omega
  cases synchronising with
  | true =>
    obtain ⟨after, run, rest⟩ := tokenRead_literal positive ch.written
      (by simpa using enough)
    rw [Channel.stream_written] at run rest
    refine ⟨after, ?_, rest⟩
    simp only [imap4TokenWrapper, announced, List.length_nil, ne_eq, not_true_eq_false, if_false,
      if_true, imap4Continue_send, nonzero]
    rw [run_bind, run_send, Outcome.next_done, run_bind, run]
    split <;> rfl
  | false =>
    obtain ⟨after, run, rest⟩ := tokenRead_literal positive ch enough
    refine ⟨after, ?_, rest⟩
    simp only [imap4TokenWrapper, announced, List.length_nil, ne_eq, not_true_eq_false, if_false,
      Bool.false_eq_true, nonzero]
    rw [run_bind, run]
    split <;> rfl

/-- Only the last token of a line announces a literal. -/
theorem acapTokenStatus_eol {platform : Platform} {t : Token} {type : AcapType} {len : Nat}
    (literal : type = .sychronisingLiteral ∨ type = .nonSychronisingLiteral)
    (status : acapTokenStatus platform t = (type, len)) : t.isEol := by
  unfold acapTokenStatus at status
  rcases literal with rfl | rfl <;> split_ifs at status <;> simp_all

/-- `acap_token_wrapper` reads a literal that fits, and the rest of the line after it. -/
theorem acapTokenWrapperLiteral_line {m fuel : Nat} {ch : Channel} {t : Token} {type : AcapType}
    (positive : 1 ≤ m) (enough : ch.stream.length < fuel) (ends : t.isEol)
    (fits : LiteralFits m ch) :
    LiteralLine m ch ((acapTokenWrapperLiteral t m type).run Channel.step fuel ch) := by
  have nonzero : m ≠ 0 := by omega
  obtain ⟨middle, run, rest⟩ := tokenRead_literal positive ch enough
  simp only [acapTokenWrapperLiteral, ends, Bool.not_true, Bool.false_eq_true, if_false, nonzero]
  rw [run_bind, run]
  by_cases short : ch.stream.length < literalTaken m
  · rw [if_pos short]
    exact .inl rfl
  rw [if_neg short, Outcome.next_done]
  have long : literalTaken m ≤ ch.stream.length := Nat.le_of_not_lt short
  obtain whole : literalTaken m = m := by
    simp only [LiteralFits, literalTaken] at *
    omega
  rw [whole] at rest long ⊢
  obtain ⟨after, line, last⟩ := readLine_streamed middle.streamed
    (show tokenPop3.has tokenImap4Literal = false by decide) 0 (.refl middle)
    (show middle.stream.length < fuel by rw [rest long, List.length_drop]; omega)
  rw [rest long] at line last
  simp only [tokenToString_noStrip]
  rw [run_bind, line]
  cases scanned : scanLine tokenPop3 0 (ch.stream.drop m) with
  | none => exact .inl rfl
  | some read =>
    rw [scanned] at last
    obtain ⟨q, left⟩ := read
    replace last : after.stream = left := last.stream
    cases q with
    | nil => exact .inl rfl
    | cons next q =>
      simp only [Option.map_some, Outcome.next_done]
      split
      · exact .inr ⟨⟨_, by rw [last]; exact scanned⟩, fun ok => by simp at ok⟩
      · exact .inr ⟨⟨_, by rw [last]; exact scanned⟩, fun _ => rfl⟩

/-- `token_read` takes a literal in one piece exactly when it fits. -/
theorem tokenRead_literalTaken {m fuel : Nat} (positive : 1 ≤ m) {ch : Channel}
    (enough : ch.stream.length < fuel) :
    LiteralTaken m ch ((do return (← tokenRead none tokenImap4Literal m).map (·.1) :
      Dialogue (Option Token)).run Channel.step fuel ch) ↔ LiteralFits m ch := by
  obtain ⟨after, run, rest⟩ := tokenRead_literal positive ch enough
  refine literalTaken_iff ⟨after, ?_, rest⟩
  rw [run_bind, run]
  split <;> rfl

/-- Literals are framed exactly where they fit the buffer of the tokeniser. -/
theorem literalFramed_iff {m fuel : Nat} (positive : 1 ≤ m) {ch : Channel}
    (enough : ch.stream.length < fuel) : LiteralFramed m fuel ch ↔ LiteralFits m ch := by
  refine ⟨fun framed => (tokenRead_literalTaken positive enough).mp framed.token, fun fits =>
    ⟨(tokenRead_literalTaken positive enough).mpr fits, ?_, ?_⟩⟩
  · intro platform t synchronising announced
    obtain ⟨after, run, rest⟩ := imap4TokenWrapper_literal positive ch enough announced
    refine (literalTaken_iff ⟨after, ?_, rest⟩).mpr fits
    rw [run_bind, run]
    split <;> rfl
  · intro platform t q type literal status
    have line := @acapTokenWrapperLiteral_line m fuel ch t type positive enough
      (acapTokenStatus_eol literal status) fits
    rcases literal with rfl | rfl <;> simpa only [acapTokenWrapper, status] using line

/-- A literal of five bytes that comes in two reads is framed. -/
theorem literalFramed_segmented :
    LiteralFramed 5 9 (Channel.reading [bytes "ab", bytes "cde\r\n"]) :=
  (literalFramed_iff (by decide) (by decide)).mpr (.inl (by decide))

/-- A literal of one byte more than the buffer holds is not framed: its last byte stays in the
stream. -/
theorem literalFramed_beyond :
    ¬ LiteralFramed 4097 4098 (Channel.reading [List.replicate 4097 97]) := by
  have length : (Channel.reading [List.replicate 4097 97]).stream.length = 4097 := by
    rw [Channel.stream_reading (by simp only [ne_eq, List.replicate_eq_nil_iff]; decide),
      List.length_replicate]
  generalize Channel.reading [List.replicate 4097 97] = ch at length ⊢
  intro framed
  have fits := (tokenRead_literalTaken (by omega) (by omega)).mp framed.token
  rw [LiteralFits, length] at fits
  exact absurd fits (by decide)

end Perdition
