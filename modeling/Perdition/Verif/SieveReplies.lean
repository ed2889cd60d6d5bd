import Perdition.Verif.SaslPlain
import Perdition.Verif.SieveCommands

/-!
# One completion for each command of a ManageSieve client

What is said in a round is looked at as a client does: its lines are counted that begin with a status
word.
-/
namespace Perdition

open Lib Program

/-! ## Completions -/

/-- The words that a completion begins with. -/
def completionWords : List (List Byte) := [bytes "OK", bytes "NO", bytes "BYE"]

/-- A word ends at a space or at the end of its line. -/
def endsWord : Option Byte → Bool
  | none => true
  | some b => b = space || b = cr

/-- A line begins with a word. -/
def beginsWith (word line : List Byte) : Bool :=
  decide (word <+: line) && endsWord (line.drop word.length).head?

/-- A line completes a command. -/
def isCompletion (line : List Byte) : Bool := completionWords.any (beginsWith · line)

/-- The completions in a text. -/
def completions (text : List Byte) : Nat := (text.splitOn lf).countP isCompletion

/-- A text has exactly one completion, and no NUL. -/
def Completed (content : List Byte) : Prop := 0 ∉ content ∧ completions content = 1

instance (content : List Byte) : Decidable (Completed content) := inferInstanceAs (Decidable (_ ∧ _))

/-- The texts before and after a line end are counted apart. -/
theorem completions_append (a b : List Byte) :
    completions (a ++ lf :: b) = completions a + completions b := by
  rw [completions, List.splitOn_append_cons_self, List.countP_append]
  rfl

theorem completions_line {line : List Byte} (one : lf ∉ line) :
    completions line = if isCompletion line then 1 else 0 := by
  rw [completions, List.splitOn_eq_singleton one, List.countP_singleton]

theorem completions_nil : completions [] = 0 := by decide

/-- A word that is in front of a byte it does not have is in front of what precedes the byte. -/
theorem prefix_append_cons {word line rest : List Byte} {c : Byte} (other : c ∉ word) :
    word <+: line ++ c :: rest ↔ word <+: line := by
  constructor
  · intro front
    by_cases long : word.length ≤ line.length
    · exact List.prefix_of_prefix_length_le front (List.prefix_append _ _) long
    · have whole : line ++ [c] <+: word := by
        apply List.prefix_of_prefix_length_le _ front
        · simp only [List.length_append, List.length_cons, List.length_nil]
          omega
        · exact ⟨rest, by simp⟩
      exact absurd (whole.subset (by simp)) other
  · intro front
    exact front.trans (List.prefix_append _ _)

theorem isCompletion_congr {line line' : List Byte}
    (same : ∀ word ∈ completionWords, beginsWith word line = beginsWith word line') :
    isCompletion line = isCompletion line' := by
  rw [isCompletion, isCompletion, Bool.eq_iff_iff, List.any_eq_true, List.any_eq_true]
  constructor
  · intro ⟨word, member, holds⟩
    exact ⟨word, member, by rw [← same word member]; exact holds⟩
  · intro ⟨word, member, holds⟩
    exact ⟨word, member, by rw [same word member]; exact holds⟩

/-- Whether a line is a completion is settled by the first byte that is in no status word. -/
theorem isCompletion_append (line rest : List Byte) {c : Byte}
    (other : ∀ word ∈ completionWords, c ∉ word) :
    isCompletion (line ++ c :: rest) = isCompletion (line ++ [c]) := by
  apply isCompletion_congr
  intro word member
  have front (rest : List Byte) := @prefix_append_cons word line rest c (other word member)
  by_cases ahead : word <+: line
  · rw [beginsWith, beginsWith, List.drop_append_of_le_length ahead.length_le,
      List.drop_append_of_le_length ahead.length_le]
    simp only [front, ahead, decide_true, Bool.true_and]
    cases line.drop word.length with
    | nil => rfl
    | cons b rest' => rfl
  · simp only [beginsWith, front, ahead, decide_false, Bool.false_and]

theorem cr_other : ∀ word ∈ completionWords, cr ∉ word := by decide

theorem paren_other : ∀ word ∈ completionWords, (41 : Byte) ∉ word := by decide

/-- A carriage return ends a word as the end of the line does. -/
theorem isCompletion_cr (line : List Byte) : isCompletion (line ++ [cr]) = isCompletion line := by
  apply isCompletion_congr
  intro word member
  have front := @prefix_append_cons word line [] cr (cr_other word member)
  by_cases ahead : word <+: line
  · rw [beginsWith, beginsWith, List.drop_append_of_le_length ahead.length_le]
    simp only [front, ahead, decide_true, Bool.true_and]
    cases line.drop word.length with
    | nil => rfl
    | cons b rest' => rfl
  · simp only [beginsWith, front, ahead, decide_false, Bool.false_and]

/-- The last line of a text is what follows its last line end. -/
theorem line_cases (text : List Byte) :
    lf ∉ text ∨ ∃ before line, text = before ++ lf :: line ∧ lf ∉ line := by
  by_cases member : lf ∈ text
  · have ⟨last, before, same, single⟩ := List.eq_append_cons_of_mem (List.mem_reverse.mpr member)
    have turned : text = before.reverse ++ lf :: last.reverse := by
      have back := congrArg List.reverse same
      simpa using back
    exact .inr ⟨before.reverse, last.reverse, turned, by simpa using single⟩
  · exact .inl member

/-- What follows the first byte of the last line that is in no status word does not count. -/
theorem completions_cut (text rest : List Byte) {c : Byte}
    (other : ∀ word ∈ completionWords, c ∉ word) (inner : c ≠ lf) (one : lf ∉ rest) :
    completions (text ++ c :: rest) = completions (text ++ [c]) := by
  have line (line : List Byte) (single : lf ∉ line) :
      completions (line ++ c :: rest) = completions (line ++ [c]) := by
    rw [completions_line (by simp [single, one, inner.symm]),
      completions_line (by simp [single, inner.symm]), isCompletion_append line rest other]
  cases line_cases text with
  | inl single => exact line text single
  | inr split =>
    have ⟨before, last, same, single⟩ := split
    rw [same, List.append_assoc, List.append_assoc, List.cons_append, List.cons_append,
      completions_append, completions_append, line last single]

/-- The same with the carriage return of a line end. -/
theorem completions_cr (text : List Byte) : completions (text ++ [cr]) = completions text := by
  have line (line : List Byte) (single : lf ∉ line) :
      completions (line ++ [cr]) = completions line := by
    rw [completions_line (by simp [single, show lf ≠ cr by decide]), completions_line single,
      isCompletion_cr]
  cases line_cases text with
  | inl single => exact line text single
  | inr split =>
    have ⟨before, last, same, single⟩ := split
    rw [same, List.append_assoc, List.cons_append, completions_append, completions_append,
      line last single]

/-- A text that ends with a line end. -/
theorem completions_crlf (text : List Byte) : completions (text ++ crlf) = completions text := by
  have apart : text ++ crlf = (text ++ [cr]) ++ lf :: [] := by simp [crlf]
  rw [apart, completions_append, completions_cr, completions_nil, Nat.add_zero]

/-! ## The texts of the replies -/

/-- A line with a status word in front. -/
theorem isCompletion_word {word : List Byte} (member : word ∈ completionWords) (rest : List Byte) :
    isCompletion (word ++ space :: rest) = true := by
  rw [isCompletion, List.any_eq_true]
  refine ⟨word, member, ?_⟩
  rw [beginsWith, List.drop_left]
  simp [endsWord]

/-- An answer with a status word and a message is one completion. -/
theorem statusLine_completed {word : String} (small : (lit word).content ∈ completionWords)
    {message : CString} (whole : ¬ message.Broken) : Completed (statusLine word message) := by
  have ⟨noCr, noLf⟩ := not_or.mp whole
  have quote : dquote ≠ lf ∧ space ≠ lf ∧ dquote ≠ 0 ∧ space ≠ 0 ∧ cr ≠ 0 ∧ lf ≠ 0 := by decide
  have single : ∀ word ∈ completionWords, lf ∉ word ∧ 0 ∉ word := by decide
  have ⟨wordLf, wordNul⟩ := single _ small
  have parts : statusLine word message =
      ((lit word).content ++ space :: (dquote :: (message.content ++ [dquote]))) ++ crlf := by
    simp [statusLine]
  constructor
  · have noNul := message.noNul
    simp only [parts, crlf, List.mem_append, List.mem_cons, List.not_mem_nil, or_false, not_or]
    exact ⟨⟨wordNul, quote.2.2.2.1.symm, quote.2.2.1.symm, noNul, quote.2.2.1.symm⟩,
      quote.2.2.2.2.1.symm, quote.2.2.2.2.2.symm⟩
  · have one : lf ∉ (lit word).content ++ space :: (dquote :: (message.content ++ [dquote])) := by
      simp only [List.mem_append, List.mem_cons, List.not_mem_nil, or_false, not_or]
      exact ⟨wordLf, quote.2.1.symm, quote.1.symm, noLf, quote.1.symm⟩
    rw [parts, completions_crlf, completions_line one, isCompletion_word small, if_pos rfl]

/-- A list of capabilities can be sent: it is defined, it fits, and no line of it is taken as a
completion. -/
def Listable (opt : Options) (tlsFlags tlsState : Flag) : Prop :=
  ∃ capability, managesieveCapability opt tlsFlags tlsState = some capability ∧
    capability.length + 33 ≤ maxText ∧ completions capability.content = 0

/-- The string of a NOOP can be sent back: it has a line end, it fits, and no later line of it is taken
as a completion. -/
def Repeatable (str : CString) : Prop :=
  str.Broken ∧ str.length + 27 ≤ maxText ∧
    ∀ line ∈ ((str.content ++ bytes ")").splitOn lf).tail, isCompletion line = false

/-- A command is answered with one completion, or its reading fails, or it has this result. -/
def Reaction.Replies {α : Type} (result : α → Prop) : Reaction α → Prop
  | .starved => True
  | .fault => False
  | .moved value content _ => result value ∨ Completed content

/-- A command is answered with one completion, or its reading fails. -/
def Reaction.Completes (reaction : Reaction Int) : Prop := reaction.Replies fun _ => False

theorem raw_completes (message : CString) (rest : List Byte) :
    (reactRaw message rest).Completes ↔
      message.length ≤ maxText ∧ completions message.content = 1 := by
  unfold reactRaw
  by_cases fits : message.length ≤ maxText
  · rw [if_pos fits]
    have noNul : 0 ∉ message.content ++ crlf := by
      simp [message.noNul, crlf, cr, lf]
    simp only [Reaction.Completes, Reaction.Replies, Completed, completions_crlf, noNul, not_false_eq_true, true_and,
      fits, false_or]
  · rw [if_neg fits]
    split
    · simp [Reaction.Completes, Reaction.Replies, Completed, fits]
    · simp [Reaction.Completes, Reaction.Replies, fits]

/-- The capabilities are answered where they can be sent. -/
theorem capability_completes (opt : Options) (tlsFlags tlsState : Flag) (rest : List Byte) :
    (reactCapability opt [] tlsFlags tlsState rest).Completes ↔ Listable opt tlsFlags tlsState := by
  unfold reactCapability Listable managesieveCapabilityMsg
  rw [if_neg (by simp)]
  cases managesieveCapability opt tlsFlags tlsState with
  | none => simp [Reaction.Completes, Reaction.Replies]
  | some capability =>
    have opening : (lit "\r\nOK \"").content = cr :: lf :: bytes "OK \"" := by decide
    have closing : completions (bytes "OK \"" ++ (lit "CAPABILITY completed, mate").content ++
        (lit "\"").content) = 1 := by
      decide +kernel
    have sizes : (lit "\r\nOK \"").length = 6 ∧ (lit "CAPABILITY completed, mate").length = 26 ∧
        (lit "\"").length = 1 := by
      decide +kernel
    have appended (left right : CString) : (left ++ right).length = left.length + right.length :=
      List.length_append
    have count : completions (capability ++ lit "\r\nOK \"" ++ lit "CAPABILITY completed, mate" ++
        lit "\"" : CString).content = completions capability.content + 1 := by
      have apart : (capability ++ lit "\r\nOK \"" ++ lit "CAPABILITY completed, mate" ++
          lit "\"" : CString).content = (capability.content ++ [cr]) ++ lf ::
            (bytes "OK \"" ++ (lit "CAPABILITY completed, mate").content ++ (lit "\"").content) := by
        simp [CString.content_append, opening]
      rw [apart, completions_append, completions_cr, closing]
    change (reactRaw (capability ++ lit "\r\nOK \"" ++ lit "CAPABILITY completed, mate" ++
      lit "\"") rest).Completes ↔ _
    rw [raw_completes, count]
    simp only [appended, sizes, Option.some.injEq, exists_eq_left']
    omega

/-- The lines after the first one of a text that begins with a status word. -/
theorem completions_later (str rest : List Byte) (one : lf ∉ rest) :
    completions (bytes "OK" ++ space :: (str ++ 41 :: rest)) = 1 ↔
      ∀ line ∈ ((str ++ [41]).splitOn lf).tail, isCompletion line = false := by
  have first (line : List Byte) (single : lf ∉ line) :
      completions (bytes "OK" ++ space :: line) = 1 := by
    have whole : lf ∉ bytes "OK" ++ space :: line := by
      have prefix_ : lf ∉ bytes "OK" ∧ lf ≠ space := by decide
      simp [prefix_, single]
    rw [completions_line whole, isCompletion_word (by decide) line, if_pos rfl]
  by_cases member : lf ∈ str
  · have ⟨line, later, same, single⟩ := List.eq_append_cons_of_mem member
    have left : bytes "OK" ++ space :: (str ++ 41 :: rest) =
        (bytes "OK" ++ space :: line) ++ lf :: (later ++ 41 :: rest) := by
      simp [same]
    have right : (str ++ [41]).splitOn lf = line :: (later ++ [41]).splitOn lf := by
      rw [same, List.append_assoc, List.cons_append,
        List.splitOn_append_cons_self_of_not_mem single]
    rw [left, completions_append, first line single,
      completions_cut later rest paren_other (by decide) one, right, List.tail_cons]
    simp [completions, List.countP_eq_zero]
  · have single : lf ∉ str ++ 41 :: rest := by
      simp [member, one, show lf ≠ 41 by decide]
    have last : lf ∉ str ++ [41] := by
      simp [member, show lf ≠ 41 by decide]
    rw [first _ single, List.splitOn_eq_singleton last]
    simp

/-- What is sent back of a string is one completion where the string can be sent. -/
theorem tag_completes (str : CString) (rest : List Byte) :
    (if str.Broken then reactRaw (noopLine str) rest else .moved 0 [] rest).Completes ↔
      Repeatable str := by
  unfold Repeatable
  by_cases broken : str.Broken
  · rw [if_pos broken, raw_completes]
    have sizes : (lit "OK").length = 2 ∧ (lit " ").length = 1 ∧ (lit ")").length = 1 ∧
        (acapFromStr (lit "NOOP completed, mate") perditionServer).a.length = 22 := by
      decide +kernel
    have appended (left right : CString) : (left ++ right).length = left.length + right.length :=
      List.length_append
    have long : (noopLine str).length = str.length + 27 := by
      simp only [noopLine, joined, List.foldl_cons, List.foldl_nil, appended, sizes]
      omega
    have count : completions (noopLine str).content = 1 ↔
        ∀ line ∈ ((str.content ++ bytes ")").splitOn lf).tail, isCompletion line = false := by
      obtain ⟨quoted, _⟩ := acapFromStr_quoted
        (show ¬ (lit "NOOP completed, mate").Broken by decide +kernel) perditionServer
      have texts : (lit "OK").content = bytes "OK" ∧ (lit ")").content = [41] ∧ bytes ")" = [41] := by
        decide
      have line : (noopLine str).content = bytes "OK" ++ space :: (str.content ++ 41 ::
          space :: dquote :: ((lit "NOOP completed, mate").content ++ [dquote])) := by
        simp [noopLine, content_joined, quoted, CString.content_append, texts]
      rw [line, completions_later str.content _ (by decide +kernel), texts.2.2]
    rw [long, count]
    simp only [broken, true_and]
  · rw [if_neg broken]
    have none_ : ¬ Completed [] := by decide
    simp [broken, Reaction.Completes, Reaction.Replies, none_]

/-! ## Reactions with a completion -/

section Replies

variable {α β : Type} {result : α → Prop} {rest : List Byte} (platform : Platform)

theorem map_replies {result : β → Prop} (f : α → β) (reaction : Reaction α) :
    (reaction.map f).Replies result ↔ reaction.Replies fun value => result (f value) := by
  cases reaction with
  | starved => rfl
  | fault => rfl
  | moved value content rest => rfl

/-- A NO is one completion. -/
theorem no_replies {result : Int → Prop} {message : CString} (whole : ¬ message.Broken) :
    (reactNo message rest).Replies result :=
  .inr (statusLine_completed (by decide) whole)

theorem ok_replies {result : Int → Prop} {message : CString} (whole : ¬ message.Broken) :
    (reactOk message rest).Replies result :=
  .inr (statusLine_completed (by decide) whole)

/-- SASLprep takes the authentication id of a challenge. -/
def Prepared (out : List Byte) : Prop :=
  out.length < 1 ∨ platform.saslprep (cstr (out.drop 1)) ≠ none

/-- SASLprep takes the ids of a challenge, and it does not make the first one longer than the
challenge. -/
def Preparable (challenge : CString) : Prop :=
  match platform.base64Decode challenge with
  | some (b :: out) =>
    if b = 0 then Prepared platform (b :: out)
    else ∃ id, platform.saslprep (cstr (b :: out)) = some id ∧ id.length ≤ (b :: out).length ∧
      Prepared platform ((b :: out).drop id.length)
  | _ => True

/-- A challenge is taken or found invalid. -/
def AuthStatus.Settled (status : AuthStatus) : Prop := status ≠ .error ∧ status ≠ .beyond

theorem rest_settled (authorisationId : Option CString) (out : List Byte) :
    (saslPlainDecodeRest platform authorisationId out).Settled ↔ Prepared platform out := by
  unfold saslPlainDecodeRest Prepared
  by_cases short : out.length < 1
  · rw [if_pos short]
    simp [AuthStatus.Settled, short]
  · rw [if_neg short]
    dsimp only
    rw [strnToStr_all]
    cases prepared : platform.saslprep (cstr (out.drop 1)) with
    | none => simp [AuthStatus.Settled, short]
    | some id =>
      dsimp only
      split
      · simp [AuthStatus.Settled]
      · split
        · simp [AuthStatus.Settled]
        · split
          · simp [AuthStatus.Settled]
          · simp [AuthStatus.Settled]

theorem challenge_settled (challenge : CString) :
    (saslPlainChallengeDecode platform challenge).Settled ↔ Preparable platform challenge := by
  unfold saslPlainChallengeDecode Preparable
  cases decoded : platform.base64Decode challenge with
  | none => simp [AuthStatus.Settled]
  | some out =>
    cases out with
    | nil => simp [AuthStatus.Settled]
    | cons b out =>
      dsimp only
      by_cases nul : b = 0
      · rw [if_neg (by simp [nul]), if_pos nul, rest_settled]
      · rw [if_pos nul, if_neg nul, strnToStr_all]
        cases prepared : platform.saslprep (cstr (b :: out)) with
        | none => simp [AuthStatus.Settled]
        | some id =>
          dsimp only
          by_cases long : (b :: out).length < id.length
          · rw [if_pos long]
            simp only [AuthStatus.Settled, ne_eq, reduceCtorEq, not_false_eq_true, not_true,
              and_false, Option.some.injEq, exists_eq_left', false_iff, not_and]
            omega
          · rw [if_neg long, rest_settled]
            simp only [Option.some.injEq, exists_eq_left']
            exact (and_iff_right (by omega)).symm

/-- Credentials were read. -/
def ManagesieveInAuthStatus.Delivers (as : ManagesieveInAuthStatus) : Prop := as.auth.isSome = true

theorem read_delivers (as : ManagesieveInAuthStatus) : as.read.Delivers ↔ as.Delivers := by
  unfold ManagesieveInAuthStatus.read
  split
  · rfl
  · rfl

theorem status_replies (reaction : Reaction Int) (f : Int → Int) :
    (reaction.map fun status => .plain (f status)).Replies ManagesieveInAuthStatus.Delivers ↔
      reaction.Completes := by
  rw [map_replies]
  have never (status : Int) : (ManagesieveInAuthStatus.plain status).Delivers ↔ False := by
    simp [ManagesieveInAuthStatus.plain, ManagesieveInAuthStatus.Delivers]
  simp only [never, Reaction.Completes]

theorem isString_status {w : AcapTokenWrapperStatus} (read : w.isString = true) : w.status = 0 := by
  unfold AcapTokenWrapperStatus.isString at read
  simp only [Bool.and_eq_true, decide_eq_true_eq] at read
  exact read.1.1

/-- A string meets a condition, where a token is one. -/
def StringMeets (condition : CString → Prop) (t : Token) (stream : List Byte) : Prop :=
  ∀ w rest, scanString platform t [] stream = some (w, rest) → w.isString = true →
    ∀ str ∈ w.str, condition str

/-- What comes after a string is answered if the string meets this condition. -/
theorem reads_replies {condition : CString → Prop}
    {reaction : AcapTokenWrapperStatus → List Byte → Reaction α} (t : Token) (stream : List Byte)
    (other : ∀ w rest, w.isString ≠ true → (reaction w rest).Replies result)
    (string : ∀ w str rest, w.isString = true → w.str = some str →
      ((reaction w rest).Replies result ↔ condition str)) :
    (Reaction.reads reaction (scanString platform t [] stream)).Replies result ↔
      StringMeets platform condition t stream := by
  unfold StringMeets
  cases scanned : scanString platform t [] stream with
  | none => simp [Reaction.reads, Reaction.Replies]
  | some found =>
    have ⟨w, rest⟩ := found
    simp only [Reaction.reads, Option.some.injEq, Prod.mk.injEq, and_imp, forall_apply_eq_imp_iff,
      forall_eq']
    by_cases read : w.isString = true
    · have ⟨str, held⟩ := scanString_str scanned (isString_status read)
      rw [string w str rest read held]
      simp [read, held]
    · simp [read, other w rest read]

/-- A challenge is answered where it is settled. -/
theorem challenge_replies (t : Token) (stream : List Byte) :
    (Reaction.reads (reactChallenge platform) (scanString platform t [] stream)).Replies
        ManagesieveInAuthStatus.Delivers ↔
      StringMeets platform (Preparable platform) t stream := by
  have never (status : Int) : ¬ (ManagesieveInAuthStatus.plain status).Delivers := by
    simp [ManagesieveInAuthStatus.plain, ManagesieveInAuthStatus.Delivers]
  have silence : ¬ Completed [] := by decide
  apply reads_replies
  · intro w rest other
    unfold reactChallenge
    rw [if_pos (by simpa using other), map_replies]
    exact no_replies (sieveTexts_short (by simp [sieveTexts])).1
  · intro w str rest read held
    unfold reactChallenge
    rw [if_neg (by simp [read]), held, ← challenge_settled]
    dsimp only
    cases decoded : saslPlainChallengeDecode platform str with
    | ok auth => simp [AuthStatus.Settled, Reaction.Replies, ManagesieveInAuthStatus.Delivers]
    | invalid reason =>
      dsimp only
      rw [map_replies]
      exact iff_of_true (no_replies (reason_short platform decoded).1)
        (by simp [AuthStatus.Settled])
    | error => simp [AuthStatus.Settled, Reaction.Replies, never, silence]
    | beyond => simp [AuthStatus.Settled, Reaction.Replies]

/-- A NOOP with a string is answered where the string can be sent back. -/
theorem noopStr_completes (t : Token) (stream : List Byte) :
    (reactNoopStr platform t stream).Completes ↔ StringMeets platform Repeatable t stream := by
  apply reads_replies
  · intro w rest other
    unfold reactTag
    rw [if_pos (by simpa using other)]
    exact no_replies (sieveTexts_short (by simp [sieveTexts])).1
  · intro w str rest read held
    unfold reactTag
    rw [if_neg (by simp [read]), held]
    exact tag_completes str rest

end Replies

/-! ## Rounds -/

section Rounds

variable (opt : Options) (platform : Platform) (tlsFlags tlsState : Flag)

/-- The commands on which the answer depends: an AUTHENTICATE whose challenge SASLprep takes, a
CAPABILITY whose list can be sent and a NOOP whose string can be sent back. -/
structure Answerable (stream : List Byte) : Prop where
  /-- The challenge of an AUTHENTICATE. -/
  authenticate : ∀ t mechanism challenge rest,
    scanLine tokenImap4 0 stream = some ([t, mechanism, challenge], rest) →
      tokenCasecmpString t (lit "AUTHENTICATE") = true →
        tokenCasecmpString mechanism (lit "\"PLAIN\"") = true →
          StringMeets platform (Preparable platform) challenge rest
  /-- The list of a CAPABILITY. -/
  capability : ∀ t rest, scanLine tokenImap4 0 stream = some ([t], rest) →
    tokenCasecmpString t (lit "CAPABILITY") = true → Listable opt tlsFlags tlsState
  /-- The string of a NOOP. -/
  noop : ∀ t arg rest, scanLine tokenImap4 0 stream = some ([t, arg], rest) →
    tokenCasecmpString t (lit "NOOP") = true → StringMeets platform Repeatable arg rest

theorem casecmp_length {t : Token} {word : CString} (same : tokenCasecmpString t word = true) :
    t.len = word.length := by
  unfold tokenCasecmpString at same
  simp only [Bool.and_eq_true, decide_eq_true_eq] at same
  exact same.1

/-- A token is one word only. -/
theorem casecmp_other {t : Token} {word other : CString} (apart : word.length ≠ other.length)
    (same : tokenCasecmpString t word = true) : ¬ tokenCasecmpString t other = true :=
  fun again => apart ((casecmp_length same).symm.trans (casecmp_length again))

/-- The conditions on a command line that was read. -/
theorem answerable_line {stream rest : List Byte} {t : Token} {q : Queue}
    (scanned : scanLine tokenImap4 0 stream = some (t :: q, rest)) :
    Answerable opt platform tlsFlags tlsState stream ↔
      (tokenCasecmpString t (lit "AUTHENTICATE") = true → ∀ mechanism challenge,
        q = [mechanism, challenge] → tokenCasecmpString mechanism (lit "\"PLAIN\"") = true →
          StringMeets platform (Preparable platform) challenge rest) ∧
      (tokenCasecmpString t (lit "CAPABILITY") = true → q = [] →
        Listable opt tlsFlags tlsState) ∧
      (tokenCasecmpString t (lit "NOOP") = true → ∀ arg, q = [arg] →
        StringMeets platform Repeatable arg rest) := by
  constructor
  · intro ⟨authenticate, capability, noop⟩
    refine ⟨?_, ?_, ?_⟩
    · intro word mechanism challenge two plain
      rw [two] at scanned
      exact authenticate t mechanism challenge rest scanned word plain
    · intro word none_
      rw [none_] at scanned
      exact capability t rest scanned word
    · intro word arg one
      rw [one] at scanned
      exact noop t arg rest scanned word
  · intro ⟨authenticate, capability, noop⟩
    constructor
    · intro t' mechanism challenge rest' line word plain
      simp only [scanned, Option.some.injEq, Prod.mk.injEq, List.cons.injEq] at line
      have ⟨⟨same, two⟩, left⟩ := line
      subst same left
      exact authenticate word mechanism challenge two plain
    · intro t' rest' line word
      simp only [scanned, Option.some.injEq, Prod.mk.injEq, List.cons.injEq] at line
      have ⟨⟨same, none_⟩, _⟩ := line
      subst same
      exact capability word none_
    · intro t' arg rest' line word
      simp only [scanned, Option.some.injEq, Prod.mk.injEq, List.cons.injEq] at line
      have ⟨⟨same, one⟩, left⟩ := line
      subst same left
      exact noop word arg one

theorem authenticate_replies (q : Queue) (stream : List Byte) :
    ((reactAuthenticate platform q stream).map ManagesieveInAuthStatus.read).Replies
        ManagesieveInAuthStatus.Delivers ↔
      ∀ mechanism challenge, q = [mechanism, challenge] →
        tokenCasecmpString mechanism (lit "\"PLAIN\"") = true →
          StringMeets platform (Preparable platform) challenge stream := by
  simp only [map_replies, read_delivers]
  unfold reactAuthenticate
  by_cases count : q.length = 0 ∨ 2 < q.length
  · rw [if_pos count]
    have refused : ((reactNo authenticateCount stream).map ManagesieveInAuthStatus.plain).Replies
        ManagesieveInAuthStatus.Delivers := by
      rw [map_replies]
      exact no_replies (sieveTexts_short (by simp [sieveTexts])).1
    apply iff_of_true refused
    intro mechanism challenge two
    rw [two] at count
    simp at count
  · rw [if_neg count]
    cases q with
    | nil => simp at count
    | cons mechanism q =>
      dsimp only
      by_cases plain : tokenCasecmpString mechanism (lit "\"PLAIN\"") = true
      · rw [if_pos plain, map_replies]
        simp only [read_delivers]
        cases q with
        | nil =>
          have refused : (reactSaslPlain platform [] stream).Replies
              ManagesieveInAuthStatus.Delivers := by
            unfold reactSaslPlain
            rw [map_replies]
            exact no_replies (sieveTexts_short (by simp [sieveTexts])).1
          apply iff_of_true refused
          intro mechanism' challenge two
          simp at two
        | cons challenge q =>
          cases q with
          | nil =>
            have one := challenge_replies platform challenge stream
            change (Reaction.reads (reactChallenge platform)
              (scanString platform challenge [] stream)).Replies _ ↔ _
            rw [one]
            simp [plain]
          | cons extra q =>
            simp only [List.length_cons] at count
            omega
      · rw [if_neg plain]
        have refused : ((reactNo (lit "Unknown SASL mechanism, mate") stream).map
            ManagesieveInAuthStatus.plain).Replies ManagesieveInAuthStatus.Delivers := by
          rw [map_replies]
          exact no_replies (sieveTexts_short (by simp [sieveTexts])).1
        apply iff_of_true refused
        intro mechanism' challenge two plain'
        simp only [List.cons.injEq] at two
        rw [← two.1] at plain'
        exact absurd plain' plain

theorem noop_completes (q : Queue) (stream : List Byte) :
    (reactNoop platform q stream).Completes ↔
      ∀ arg, q = [arg] → StringMeets platform Repeatable arg stream := by
  unfold reactNoop
  match q with
  | [] => exact iff_of_true (ok_replies (sieveTexts_short (by simp [sieveTexts])).1) (by simp)
  | [arg] => simp [noopStr_completes]
  | _ :: _ :: _ => exact iff_of_true (no_replies (sieveTexts_short (by simp [sieveTexts])).1) (by simp)

/-- A round answers its command exactly where it is answerable. -/
theorem react_replies (type : IoType) (stream : List Byte) :
    (react opt platform tlsFlags tlsState type stream).Replies ManagesieveInAuthStatus.Delivers ↔
      Answerable opt platform tlsFlags tlsState stream := by
  unfold react
  cases scanned : scanLine tokenImap4 0 stream with
  | none =>
    apply iff_of_true trivial
    constructor
    · intro t mechanism challenge rest line
      simp [scanned] at line
    · intro t rest line
      simp [scanned] at line
    · intro t arg rest line
      simp [scanned] at line
  | some found =>
    have ⟨q, rest⟩ := found
    cases q with
    | nil => exact absurd rfl (scanLine_ne_nil scanned)
    | cons token q =>
      rw [answerable_line opt platform tlsFlags tlsState scanned]
      dsimp only
      by_cases authenticate : tokenCasecmpString token (lit "AUTHENTICATE") = true
      · have apart : ¬ tokenCasecmpString token (lit "CAPABILITY") = true ∧
            ¬ tokenCasecmpString token (lit "NOOP") = true :=
          ⟨casecmp_other (by decide) authenticate, casecmp_other (by decide) authenticate⟩
        rw [if_pos authenticate, authenticate_replies]
        simp [authenticate, apart]
      rw [if_neg authenticate]
      by_cases capability : tokenCasecmpString token (lit "CAPABILITY") = true
      · have apart : ¬ tokenCasecmpString token (lit "NOOP") = true :=
          casecmp_other (by decide) capability
        rw [if_pos capability, status_replies]
        cases q with
        | nil => simp [authenticate, capability, apart, capability_completes]
        | cons extra q =>
          apply iff_of_true (no_replies (sieveTexts_short (by simp [sieveTexts])).1)
          exact ⟨(absurd · authenticate), by simp, (absurd · apart)⟩
      rw [if_neg capability]
      by_cases logout : tokenCasecmpString token (lit "LOGOUT") = true
      · have apart : ¬ tokenCasecmpString token (lit "NOOP") = true :=
          casecmp_other (by decide) logout
        have answered : (reactLogout q rest).Completes := by
          unfold reactLogout
          split
          · exact ok_replies (sieveTexts_short (by simp [sieveTexts])).1
          · exact no_replies (sieveTexts_short (by simp [sieveTexts])).1
        rw [if_pos logout]
        apply iff_of_true ((status_replies _ _).mpr answered)
        exact ⟨(absurd · authenticate), (absurd · capability), (absurd · apart)⟩
      rw [if_neg logout]
      by_cases noop : tokenCasecmpString token (lit "NOOP") = true
      · rw [if_pos noop, status_replies, noop_completes]
        simp [authenticate, capability, noop]
      rw [if_neg noop]
      split
      · have answered : (reactStarttls q rest).Completes := by
          unfold reactStarttls
          split
          · exact no_replies (sieveTexts_short (by simp [sieveTexts])).1
          · exact ok_replies (sieveTexts_short (by simp [sieveTexts])).1
        apply iff_of_true ((status_replies _ _).mpr answered)
        exact ⟨(absurd · authenticate), (absurd · capability), (absurd · noop)⟩
      · have answered : (reactNo (lit "Unknown command, mate") rest).Completes :=
          no_replies (sieveTexts_short (by simp [sieveTexts])).1
        apply iff_of_true ((status_replies _ fun _ => 0).mpr answered)
        exact ⟨(absurd · authenticate), (absurd · capability), (absurd · noop)⟩

/-- A reaction leaves at most this many bytes. -/
def Reaction.Within {α : Type} (count : Nat) : Reaction α → Prop
  | .moved _ _ rest => rest.length ≤ count
  | _ => True

theorem map_within {α β : Type} {count : Nat} (f : α → β) {reaction : Reaction α}
    (inside : reaction.Within count) : (reaction.map f).Within count := by
  cases reaction with
  | starved => trivial
  | fault => trivial
  | moved value content rest => exact inside

theorem raw_within (message : CString) (rest : List Byte) :
    (reactRaw message rest).Within rest.length := by
  unfold reactRaw
  split
  · exact le_rfl
  · split
    · exact le_rfl
    · trivial

theorem reads_within {α : Type} {reaction : AcapTokenWrapperStatus → List Byte → Reaction α}
    (inside : ∀ w rest, (reaction w rest).Within rest.length) (t : Token) (stream : List Byte) :
    (Reaction.reads reaction (scanString platform t [] stream)).Within stream.length := by
  cases scanned : scanString platform t [] stream with
  | none => trivial
  | some found =>
    have ⟨w, rest⟩ := found
    have shorter := scanString_length platform scanned
    have within_ := inside w rest
    change (reaction w rest).Within stream.length
    cases reaction : reaction w rest with
    | starved => trivial
    | fault => trivial
    | moved value content rest' =>
      rw [reaction] at within_
      exact within_.trans shorter

theorem saslPlain_within (q : Queue) (stream : List Byte) :
    (reactSaslPlain platform q stream).Within stream.length := by
  unfold reactSaslPlain
  split
  · apply reads_within
    intro w rest
    unfold reactChallenge
    split
    · exact le_rfl
    · split
      · trivial
      · split
        · exact le_rfl
        · exact le_rfl
        · exact le_rfl
        · trivial
  · exact le_rfl

theorem authenticate_within (q : Queue) (stream : List Byte) :
    (reactAuthenticate platform q stream).Within stream.length := by
  unfold reactAuthenticate
  split
  · exact le_rfl
  · split
    · trivial
    · split
      · exact map_within _ (saslPlain_within platform _ stream)
      · exact le_rfl

theorem capability_within (q : Queue) (stream : List Byte) :
    (reactCapability opt q tlsFlags tlsState stream).Within stream.length := by
  unfold reactCapability
  split
  · exact le_rfl
  · split
    · trivial
    · exact raw_within _ stream

theorem noop_within (q : Queue) (stream : List Byte) :
    (reactNoop platform q stream).Within stream.length := by
  unfold reactNoop
  split
  · exact le_rfl
  · apply reads_within
    intro w rest
    unfold reactTag
    split
    · exact le_rfl
    · split
      · trivial
      · split
        · exact raw_within _ rest
        · exact le_rfl
  · exact le_rfl

/-- A round leaves no more than there was. -/
theorem react_within (type : IoType) (stream : List Byte) :
    (react opt platform tlsFlags tlsState type stream).Within stream.length := by
  unfold react
  cases scanned : scanLine tokenImap4 0 stream with
  | none => trivial
  | some found =>
    have ⟨q, rest⟩ := found
    have shorter := scanLine_shorter scanned
    have wider {reaction : Reaction ManagesieveInAuthStatus} (inside : reaction.Within rest.length) :
        reaction.Within stream.length := by
      cases reaction with
      | starved => trivial
      | fault => trivial
      | moved value content rest' =>
        change rest'.length ≤ rest.length at inside
        change rest'.length ≤ stream.length
        omega
    cases q with
    | nil => trivial
    | cons token q =>
      apply wider
      dsimp only
      split
      · exact map_within _ (authenticate_within platform q rest)
      · split
        · exact map_within _ (capability_within opt tlsFlags tlsState q rest)
        · split
          · apply map_within
            unfold reactLogout
            split
            · exact le_rfl
            · exact le_rfl
          · split
            · exact map_within _ (noop_within platform q rest)
            · split
              · apply map_within
                unfold reactStarttls
                split
                · exact le_rfl
                · exact le_rfl
              · exact le_rfl

/-- A round is answered: one completion is said in it, unless a read fails or credentials are read. -/
def Talk.Answered (fuel : Nat) (t : Talk) : Prop :=
  ∃ as t' content,
    (managesieveInGetAuthLoop opt platform tlsFlags tlsState).run serverStep fuel t = .done as t' ∧
      t'.log.saidAll = t.log.saidAll ++ content ∧
      (t'.log.now.silent = true ∨ as.Delivers ∨ Completed content)

/-- The rounds of a call: the next one starts where the last one ended with a status that does not leave
the loop. -/
inductive Talk.Rounds (fuel : Nat) (t : Talk) : Talk → Prop
  /-- The first round. -/
  | first : Rounds fuel t t
  /-- The round after one. -/
  | next {t' t'' : Talk} {as : ManagesieveInAuthStatus} : Rounds fuel t t' →
    (managesieveInGetAuthLoop opt platform tlsFlags tlsState).run serverStep fuel t' = .done as t'' →
      as.status = 0 ∨ as.status = -1 → Rounds fuel t t''

/-- What a round needs. -/
structure Talk.Open (fuel : Nat) (t : Talk) : Prop where
  /-- Writes succeed. -/
  writable : t.Writable
  /-- No read failed. -/
  silent : t.log.now.silent = false
  /-- The bytes that are left can be read. -/
  enough : t.stream.length < fuel

/-- A round that starts open is answered exactly where its command is answerable. -/
theorem round_answered {fuel : Nat} {t : Talk} (start : t.Open fuel) :
    t.Answered opt platform tlsFlags tlsState fuel ↔
      Answerable opt platform tlsFlags tlsState t.stream := by
  have reacts := loop_reacts opt platform tlsFlags tlsState start.writable start.enough
  rw [← react_replies opt platform tlsFlags tlsState (t.type .server) t.stream]
  cases reaction : react opt platform tlsFlags tlsState (t.type .server) t.stream with
  | starved =>
    rw [reaction] at reacts
    have ⟨t', run, starves⟩ := reacts
    apply iff_of_true _ trivial
    exact ⟨_, t', [], run, by simp [starves.said], .inl starves.silent⟩
  | fault =>
    rw [reaction] at reacts
    have ⟨why, t', run⟩ := reacts
    apply iff_of_false
    · intro ⟨as, t'', content, run', _⟩
      rw [run] at run'
      simp at run'
    · exact id
  | moved as content rest =>
    rw [reaction] at reacts
    have ⟨t', run, moves⟩ := reacts
    constructor
    · intro ⟨as', t'', content', run', said, ends⟩
      rw [run, Outcome.done.injEq] at run'
      have ⟨same, last⟩ := run'
      subst same last
      have text : content' = content := by
        rw [moves.said] at said
        exact (List.append_cancel_left said).symm
      subst text
      simpa [Reaction.Replies, moves.silent start.silent] using ends
    · intro ends
      exact ⟨as, t', content, run, moves.said, .inr ends⟩

/-- A round that does not leave the loop ends open. -/
theorem round_open {fuel : Nat} {t t' : Talk} {as : ManagesieveInAuthStatus} (start : t.Open fuel)
    (run : (managesieveInGetAuthLoop opt platform tlsFlags tlsState).run Talk.serverStep fuel t =
      .done as t') (again : as.status = 0 ∨ as.status = -1) : t'.Open fuel := by
  have reacts := loop_reacts opt platform tlsFlags tlsState start.writable start.enough
  have less := react_within opt platform tlsFlags tlsState (t.type .server) t.stream
  rw [run] at reacts
  cases reaction : react opt platform tlsFlags tlsState (t.type .server) t.stream with
  | starved =>
    rw [reaction] at reacts
    have ⟨_, same, _⟩ := reacts
    rw [Outcome.done.injEq] at same
    rw [same.1] at again
    exact absurd again (show ¬ ((-3 : Int) = 0 ∨ (-3 : Int) = -1) by decide)
  | fault =>
    rw [reaction] at reacts
    have ⟨_, _, same⟩ := reacts
    simp at same
  | moved value content rest =>
    rw [reaction] at reacts less
    have ⟨last, same, moves⟩ := reacts
    rw [Outcome.done.injEq] at same
    have ⟨_, here⟩ := same
    subst here
    have enough := start.enough
    refine ⟨moves.writable start.writable, moves.silent start.silent, ?_⟩
    rw [moves.stream]
    exact Nat.lt_of_le_of_lt less enough

/-- Every round of a call is open. -/
theorem rounds_open {fuel : Nat} {t t' : Talk} (start : t.Open fuel)
    (rounds : t.Rounds opt platform tlsFlags tlsState fuel t') : t'.Open fuel := by
  induction rounds with
  | first => exact start
  | next _ run again ih => exact round_open opt platform tlsFlags tlsState ih run again

/-- Where writes succeed, a command that is read in any round of a call is answered with exactly one
completion if and only if it is answerable. -/
theorem managesieveInGetAuth_answered_iff (fuel : Nat) (t : Talk) (start : t.Open fuel) (t' : Talk)
    (rounds : t.Rounds opt platform tlsFlags tlsState fuel t') :
    t'.Answered opt platform tlsFlags tlsState fuel ↔
      Answerable opt platform tlsFlags tlsState t'.stream :=
  round_answered opt platform tlsFlags tlsState
    (rounds_open opt platform tlsFlags tlsState start rounds)

end Rounds

/-- A LOGOUT is answered. -/
theorem managesieveInGetAuth_answered_logout :
    (Talk.reading [bytes "LOGOUT\r\n"]).Answered Options.sample Platform.sample 0 0 9 :=
  (managesieveInGetAuth_answered_iff Options.sample Platform.sample 0 0 9
    (Talk.reading [bytes "LOGOUT\r\n"])
    ⟨fun ok member => by simp [Talk.reading] at member, rfl, by decide⟩ _ .first).mpr (by
      have line : scanLine tokenImap4 0 (Talk.reading [bytes "LOGOUT\r\n"]).stream =
          some ([⟨bytes "LOGOUT", tokenEol⟩], []) := by
        decide +kernel
      have word : tokenCasecmpString ⟨bytes "LOGOUT", tokenEol⟩ (lit "CAPABILITY") = false := by
        decide +kernel
      rw [answerable_line _ _ 0 0 line]
      simp [word])

/-- A NOOP with a string is not answered. -/
theorem managesieveInGetAuth_noop_silent :
    (Talk.reading [bytes "NOOP \"sync\"\r\n"]).Open 20 ∧
      ¬ (Talk.reading [bytes "NOOP \"sync\"\r\n"]).Answered Options.sample Platform.sample
        0 0 20 := by
  have start : (Talk.reading [bytes "NOOP \"sync\"\r\n"]).Open 20 :=
    ⟨fun ok member => by simp [Talk.reading] at member, rfl, by decide⟩
  have line : scanLine tokenImap4 0 (Talk.reading [bytes "NOOP \"sync\"\r\n"]).stream =
      some ([⟨bytes "NOOP", tokenNone⟩, ⟨bytes "\"sync\"", tokenEol⟩], []) := by
    decide +kernel
  have string : scanString Platform.sample ⟨bytes "\"sync\"", tokenEol⟩ [] [] =
      some (⟨0, .quoted, none, some (lit "sync")⟩, []) := by
    decide +kernel
  refine ⟨start, ?_⟩
  rw [round_answered _ _ 0 0 start]
  intro answerable
  have repeatable := answerable.noop _ _ _ line (by decide +kernel) _ _ string (by decide) _ rfl
  exact absurd repeatable.1 (by decide +kernel)

end Perdition
