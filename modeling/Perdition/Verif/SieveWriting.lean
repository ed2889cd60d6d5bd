import Perdition.Verif.Answers
import Perdition.Verif.Strings

/-!
# Replies of ManageSieve

What `managesieve_write` sends, against the reply that a command, a response code and a message stand
for. The loop over the parts of a response code starts behind the first part, so that a response code is
never sent whole.
-/
namespace Perdition

open Lib Program

/-! ## The reply that is meant -/

/-- A string with a line end in it can only be sent as a literal. -/
def CString.Broken (s : CString) : Prop := cr ∈ s.content ∨ lf ∈ s.content

instance (s : CString) : Decidable s.Broken := inferInstanceAs (Decidable (_ ∨ _))

/-- A string in ACAP form. -/
def acapForm (flag : Flag) (s : CString) : List Byte :=
  if s.Broken then literalHeader (flag.has perditionClient) s.length ++ crlf ++ s.content else quotedWire s.content

/-- A response code: its atom and its arguments in parentheses. -/
def responseCodeForm (flag : Flag) (rc : ManagesieveResponseCode) : List Byte :=
  bytes "(" ++ rc.atom.content ++ rc.arg.flatMap (fun arg => space :: acapForm flag arg) ++
    bytes ")"

/-- One reply. -/
def replyForm (flag : Flag) (command : CString) (rc : Option ManagesieveResponseCode)
    (message : Option CString) : List Byte :=
  command.content ++
    (match rc with
      | none => []
      | some rc => space :: responseCodeForm flag rc) ++
    (match message with
      | none => []
      | some message => space :: acapForm flag message) ++ crlf

/-- All that was said, in its order. -/
def Log.saidAll (log : Log) : List Byte := (log.turns.map (·.said)).reverse.flatten

/-- What is said comes last. -/
@[simp] theorem Log.saidAll_say (log : Log) (content : List Byte) (ok : Bool) :
    (log.say content ok).saidAll = log.saidAll ++ content := by
  simp [saidAll, turns, say]

namespace Talk

/-- All writes succeed. -/
def Writable (t : Talk) : Prop := ∀ ok ∈ t.serverWrites, ok = true

/-- Then one does, and those after it. -/
theorem Writable.say {t : Talk} (writable : t.Writable) (content : List Byte) :
    (t.say content).1 = true ∧ (t.say content).2.Writable := by
  have first : (t.say content).1 = t.serverWrites.headD true := rfl
  have rest : (t.say content).2.serverWrites = t.serverWrites.tail := rfl
  unfold Writable at *
  rw [first, rest]
  cases writes : t.serverWrites with
  | nil => exact ⟨rfl, by simp⟩
  | cons ok rest =>
    rw [writes] at writable
    exact ⟨writable ok (by simp), fun ok' member => writable ok' (List.mem_cons_of_mem _ member)⟩

end Talk

/-- The writer sends exactly the reply. -/
def Replies (flag : Flag) (command : CString) (rc : Option ManagesieveResponseCode)
    (message : Option CString) (fuel : Nat) (t : Talk) : Prop :=
  ∃ t', (managesieveWrite flag command rc message).run Talk.serverStep fuel t = .done 0 t' ∧
    t'.log.saidAll = t.log.saidAll ++ replyForm flag command rc message

/-- There is no response code, every line that is sent fits the write buffer, and a message that is quoted
has nothing to escape. -/
def ReplyFits (flag : Flag) (command : CString) (rc : Option ManagesieveResponseCode)
    (message : Option CString) : Prop :=
  rc.isNone ∧
    match message with
    | none => command.length ≤ maxText
    | some message =>
      if message.Broken then
        command.length + 1 + (literalHeader (flag.has perditionClient) message.length).length ≤ maxText ∧
          message.length ≤ maxText
      else (dquote ∉ message.content ∧ backslash ∉ message.content) ∧
        command.length + 1 + (message.length + 2) ≤ maxText

/-! ## Lines -/

/-- What `managesieve_write_raw` comes to. -/
def rawSends (message : CString) (stale : List Byte) : Relay :=
  strVwriteSends 0 1 (lit "%s") (some message.content) stale

namespace Talk

theorem run_raw (message : CString) (fuel : Nat) (t : Talk) :
    (managesieveWriteRaw message).run serverStep fuel t = t.spoken (rawSends message t.stale) := by
  have expand : vformat (lit "%s").content [.str message] = some message.content := by
    rw [content_lit (by decide)]
    change vformat [37, 115] [.str message] = _
    simp [vformat]
  have write := run_strVwrite_server 0 1 (lit "%s") (some message.content) fuel t
  change (do if (← strVwrite 0 1 (lit "%s") (vformat (lit "%s").content [.str message])) < 0
    then return -1 else return 0 : Dialogue Int).run serverStep fuel t = _
  rw [expand, run_bind, write]
  change (t.spoken (rawSends message t.stale)).next _ = _
  cases rawSends message t.stale with
  | fault why => rfl
  | refused => rfl
  | message content =>
    simp only [spoken, Outcome.next_done]
    cases (t.say content).1 <;> rfl

end Talk

/-- A line that fits is sent with its end, one that is a byte longer has a NUL as its last byte, and a
longer one is read beyond the buffer. -/
theorem rawSends_eq (message : CString) (stale : List Byte) :
    rawSends message stale =
      if message.length ≤ maxText then .message (message.content ++ crlf)
      else if message.length = maxText + 1 then
        .message (message.content.take maxText ++ [0] ++ crlf)
      else .fault .strVwrite := by
  have slow : strVwriteFast 0 1 = false := by decide
  have count : fmtArgs (lit "%s").content = 1 := by
    rw [content_lit (by decide)]
    decide
  have line : (0 : Flag).has writeStrNoCllf = false := by decide
  have long : message.length = message.content.length := rfl
  have limits : maxText = 4093 ∧ strWriteBufLen = 4096 := ⟨rfl, rfl⟩
  have whole : strVwriteBuf 0 1 (lit "%s") (some message.content) =
      some ⟨message.content.take maxText ++ [0], some message.length, message.length + 2⟩ := by
    unfold strVwriteBuf
    rw [if_neg (by simp), if_neg (by simp [count])]
    simp only [line, Bool.false_eq_true, if_false]
    rfl
  have inside : StrVwrite.inside ⟨message.content.take maxText ++ [0], some message.length,
      message.length + 2⟩ = decide (message.length ≤ maxText + 1) := by
    rw [StrVwrite.inside, Bool.eq_iff_iff]
    simp only [List.length_append, List.length_take, List.length_cons, List.length_nil,
      Bool.and_eq_true, decide_eq_true_eq]
    omega
  unfold rawSends strVwriteSends
  rw [whole]
  simp only [slow, inside, Bool.not_false, Bool.true_and, Bool.not_eq_true',
    decide_eq_false_iff_not, Option.isSome_some, if_true]
  by_cases fits : message.length ≤ maxText
  · have kept : message.content.take maxText = message.content := List.take_of_length_le fits
    have front : (message.content ++ [0]).take message.length = message.content := List.take_left
    rw [if_neg (by omega), if_pos fits, kept, front, long, Nat.sub_self, List.take_zero,
      List.append_nil]
  · rw [if_neg fits]
    by_cases one : message.length = maxText + 1
    · have front : (message.content.take maxText ++ [0]).take message.length =
          message.content.take maxText ++ [0] := by
        apply List.take_of_length_le
        simp only [List.length_append, List.length_take, List.length_singleton]
        omega
      have filled : (message.content.take maxText ++ [0]).length = message.length := by
        simp only [List.length_append, List.length_take, List.length_singleton]
        omega
      rw [if_neg (by omega), if_pos one, front, filled, Nat.sub_self, List.take_zero,
        List.append_nil]
    · rw [if_neg one, if_pos (by omega)]

/-- Strings with spaces between them. -/
def joined (first : CString) (rest : List CString) : CString :=
  rest.foldl (fun out str => out ++ lit " " ++ str) first

theorem content_joined (first : CString) (rest : List CString) :
    (joined first rest).content =
      first.content ++ rest.flatMap fun str => space :: str.content := by
  induction rest generalizing first with
  | nil => simp [joined]
  | cons str rest ih =>
    have gap : (lit " ").content = [space] := by decide
    have step := ih (first ++ lit " " ++ str)
    change (joined (first ++ lit " " ++ str) rest).content = _
    rw [step, CString.content_append, CString.content_append, gap]
    simp

namespace Talk

/-- A list of strings is written as one line. -/
theorem run_list {strings : List (Option CString)} {first : CString} {rest : List CString}
    (some_ : strings.filterMap id = first :: rest) (fuel : Nat) (t : Talk) :
    (managesieveWriteList strings).run serverStep fuel t =
      t.spoken (rawSends (joined first rest) t.stale) := by
  unfold managesieveWriteList
  rw [some_]
  change (do if (← managesieveWriteRaw (joined first rest)) < 0 then return -1 else return 0 :
    Dialogue Int).run serverStep fuel t = _
  rw [run_bind, run_raw]
  cases rawSends (joined first rest) t.stale with
  | fault why => rfl
  | refused => rfl
  | message content =>
    simp only [spoken, Outcome.next_done]
    cases (t.say content).1 <;> rfl

end Talk

/-! ## Forms -/

/-- A string that is not quoted is a literal. -/
theorem acapFromStr_broken {s : CString} (broken : s.Broken) (flag : Flag) :
    (acapFromStr s flag).a.content = literalHeader (flag.has perditionClient) s.length ∧ (acapFromStr s flag).b = some s := by
  have literal : (!s.content.contains cr && !s.content.contains lf) = false := by
    rcases broken with has | has
    · simp [has]
    · simp [has]
  unfold acapFromStr
  simp only [literal, Bool.false_eq_true, if_false, and_true]
  apply cstr_content
  have digits : (0 : Byte) ∉ decimal s.length := fun nul =>
    absurd (isDigit_decimal nul) (by decide)
  have plus : (0 : Byte) ∉ (if flag.has perditionClient then bytes "+" else []) := by
    split <;> decide
  simp only [List.mem_append, not_or]
  exact ⟨⟨⟨by decide, digits⟩, plus⟩, by decide⟩

/-- A string without a line end is put into quotes as it is. -/
theorem acapFromStr_quoted {s : CString} (quoted : ¬ s.Broken) (flag : Flag) :
    (acapFromStr s flag).a.content = dquote :: (s.content ++ [dquote]) ∧
      (acapFromStr s flag).b = none := by
  have ⟨noCr, noLf⟩ := not_or.mp quoted
  have plain : (!s.content.contains cr && !s.content.contains lf) = true := by simp [noCr, noLf]
  have quote : (lit "\"").content = [dquote] := by decide
  unfold acapFromStr
  rw [if_pos plain, CString.content_append, CString.content_append, quote]
  exact ⟨rfl, rfl⟩

/-- Escaping makes nothing shorter. -/
theorem length_escape_le (content : List Byte) : content.length ≤ (escape content).length := by
  induction content with
  | nil => simp
  | cons b content ih =>
    rw [escape_cons, List.length_append, List.length_cons]
    split
    · simp only [List.length_cons, List.length_nil]
      omega
    · simp only [List.length_cons, List.length_nil]
      omega

/-- Escaping changes what has a quote or a backslash in it. -/
theorem escape_eq_self_iff (content : List Byte) :
    escape content = content ↔ dquote ∉ content ∧ backslash ∉ content := by
  constructor
  · intro same
    induction content with
    | nil => simp
    | cons b content ih =>
      rw [escape_cons] at same
      split at same
      · -- An escaped byte makes the whole longer.
        have lengths := congrArg List.length same
        have more := length_escape_le content
        simp only [List.length_append, List.length_cons, List.length_nil] at lengths
        omega
      · rename_i plain
        simp only [List.cons_append, List.nil_append, List.cons.injEq, true_and] at same
        have ⟨noQuote, noSlash⟩ := ih same
        have ⟨quote, slash⟩ := not_or.mp plain
        exact ⟨by simp [Ne.symm quote, noQuote], by simp [Ne.symm slash, noSlash]⟩
  · intro ⟨noQuote, noSlash⟩
    exact escape_plain fun b member =>
      ⟨fun same => noQuote (same ▸ member), fun same => noSlash (same ▸ member)⟩

/-- What is sent of a string is no longer than its form. -/
theorem acapFromStr_length (s : CString) (flag : Flag) :
    (acapFromStr s flag).a.length +
        ((acapFromStr s flag).b.elim 0 fun body => 2 + body.length) ≤
      (acapForm flag s).length := by
  by_cases broken : s.Broken
  · obtain ⟨header, body⟩ := acapFromStr_broken broken flag
    have long : (acapFromStr s flag).a.length = (literalHeader (flag.has perditionClient) s.length).length :=
      congrArg List.length header
    rw [body, long, acapForm, if_pos broken, Option.elim_some]
    simp only [List.length_append, crlf, List.length_cons, List.length_nil, CString.length]
    omega
  · obtain ⟨quoted, none_⟩ := acapFromStr_quoted broken flag
    have long : (acapFromStr s flag).a.length = (dquote :: (s.content ++ [dquote])).length :=
      congrArg List.length quoted
    have more := length_escape_le s.content
    rw [none_, long, acapForm, if_neg broken, quotedWire, Option.elim_none]
    simp only [List.length_append, List.length_cons, List.length_nil]
    omega

/-- A form holds no NUL. -/
theorem acapForm_noNul (flag : Flag) (s : CString) : (0 : Byte) ∉ acapForm flag s := by
  unfold acapForm
  split
  · intro nul
    have digits : (0 : Byte) ∉ decimal s.length := fun nul =>
      absurd (isDigit_decimal nul) (by decide)
    have plus : (0 : Byte) ∉ (if flag.has perditionClient = true then [43] else [] : List Byte) := by
      split <;> decide
    simp only [literalHeader, List.mem_append, List.mem_cons, List.not_mem_nil, or_false] at nul
    rcases nul with ((open_ | ((inside | inside) | close)) | line) | inside
    · exact absurd open_ (by decide)
    · exact digits inside
    · exact plus inside
    · exact absurd close (by decide)
    · exact absurd line (by decide)
    · exact s.noNul inside
  · intro nul
    rw [quotedWire, List.mem_cons, List.mem_append, List.mem_singleton] at nul
    rcases nul with quote | inside | quote
    · exact absurd quote (by decide)
    · rcases mem_escape inside with slash | inside
      · exact absurd slash (by decide)
      · exact s.noNul inside
    · exact absurd quote (by decide)

/-! ## Lines in a talk whose writes succeed -/

namespace Talk

/-- A line that was sent. -/
structure Sent (t t' : Talk) (message : CString) : Prop where
  /-- Writes still succeed. -/
  writable : t'.Writable
  /-- The buffer is as it was. -/
  stale : t'.stale = t.stale
  /-- One line was said, with a NUL in it where it does not fit. -/
  said : ∃ content, t'.log.saidAll = t.log.saidAll ++ content ∧
    content.length = message.length + 2 ∧
    (message.length ≤ maxText ∧ content = message.content ++ crlf ∨ 0 ∈ content)

/-- A line that fits is sent. -/
theorem spoken_fits {t : Talk} (writable : t.Writable) {message : CString}
    (fits : message.length ≤ maxText) :
    ∃ t', t.spoken (rawSends message t.stale) = .done 0 t' ∧ t'.Writable ∧ t'.stale = t.stale ∧
      t'.log.saidAll = t.log.saidAll ++ (message.content ++ crlf) := by
  have ⟨ok, still⟩ := writable.say (message.content ++ crlf)
  rw [rawSends_eq, if_pos fits]
  refine ⟨(t.say (message.content ++ crlf)).2, ?_, still, rfl, Log.saidAll_say _ _ _⟩
  simp only [spoken, ok, if_true]

/-- A line whose writing returns was sent. -/
theorem spoken_sent {t t' : Talk} (writable : t.Writable) {message : CString} {status : Int}
    (run : t.spoken (rawSends message t.stale) = .done status t') :
    status = 0 ∧ t.Sent t' message := by
  rw [rawSends_eq] at run
  have long : message.length = message.content.length := rfl
  have say (content : List Byte) (here : t.spoken (.message content) = .done status t')
      (length : content.length = message.length + 2)
      (shape : message.length ≤ maxText ∧ content = message.content ++ crlf ∨ 0 ∈ content) :
      status = 0 ∧ t.Sent t' message := by
    obtain ⟨ok, still⟩ := writable.say content
    simp only [spoken, ok, if_true, Outcome.done.injEq] at here
    obtain ⟨zero, last⟩ := here
    subst last
    exact ⟨zero.symm, still, rfl, content, Log.saidAll_say _ _ _, length, shape⟩
  split at run
  · rename_i fits
    refine say _ run ?_ (.inl ⟨fits, rfl⟩)
    rw [List.length_append, long]
    rfl
  · split at run
    · rename_i one
      refine say _ run ?_ (.inr (by simp))
      simp only [List.length_append, List.length_take, crlf, List.length_cons,
        List.length_nil]
      omega
    · simp [spoken] at run

end Talk

/-! ## Without a response code -/

/-- The line that is sent first without a response code. -/
def firstLine (flag : Flag) (command : CString) (message : Option CString) : CString :=
  joined command (message.map fun message => (acapFromStr message flag).a).toList

/-- The body that is sent after it. -/
def bodyLine (flag : Flag) (message : Option CString) : Option CString :=
  message.bind fun message => (acapFromStr message flag).b

/-- After the lines of a reply its body is sent, where there is one. -/
def Talk.finish (body : Option CString) (t : Talk) : Outcome Talk Stop Int :=
  match body with
  | none => .done 0 t
  | some body => t.spoken (rawSends body t.stale)

/-- The body of a message is written last. -/
theorem Talk.run_body (body : Option CString) (fuel : Nat) (t : Talk) :
    (match body with
      | none => return 0
      | some body => do
        if (← managesieveWriteRaw body) < 0 then return -1 else return 0 : Dialogue Int).run
      Talk.serverStep fuel t = t.finish body := by
  cases body with
  | none => rfl
  | some body =>
    change (do if (← managesieveWriteRaw body) < 0 then return -1 else return 0 :
      Dialogue Int).run Talk.serverStep fuel t = _
    rw [run_bind, Talk.run_raw, Talk.finish]
    cases rawSends body t.stale with
    | fault why => rfl
    | refused => rfl
    | message content =>
      simp only [Talk.spoken, Outcome.next_done]
      cases (t.say content).1 <;> rfl

/-- Without a response code a line and a body are sent. -/
theorem run_plain (flag : Flag) (command : CString) (message : Option CString) (fuel : Nat)
    {t : Talk} (writable : t.Writable) :
    (managesieveWrite flag command none message).run Talk.serverStep fuel t =
      (t.spoken (rawSends (firstLine flag command message) t.stale)).next fun _ t' =>
        t'.finish (bodyLine flag message) := by
  have strings : ([some command, (message.map fun message => acapFromStr message flag).map (·.a)] :
      List (Option CString)).filterMap id =
        command :: (message.map fun message => (acapFromStr message flag).a).toList := by
    cases message <;> rfl
  have body : (message.map fun message => acapFromStr message flag).bind (·.b) =
      bodyLine flag message := by
    cases message <;> rfl
  unfold managesieveWrite
  rw [run_bind]
  change ((managesieveWriteList _).run Talk.serverStep fuel t).next _ = _
  rw [Talk.run_list strings]
  change (t.spoken (rawSends (firstLine flag command message) t.stale)).next _ = _
  cases sent : t.spoken (rawSends (firstLine flag command message) t.stale) with
  | halted reason t' => rfl
  | looping t' => rfl
  | done status t' =>
    have ⟨zero, _⟩ := Talk.spoken_sent writable sent
    subst zero
    rw [Outcome.next_done, Outcome.next_done, run_ite, if_neg (show ¬ (0 : Int) < 0 by decide)]
    rw [body]
    exact Talk.run_body _ fuel t'

/-- The reply without a response code holds no NUL. -/
theorem replyForm_noNul (flag : Flag) (command : CString) (message : Option CString) :
    (0 : Byte) ∉ replyForm flag command none message := by
  intro nul
  simp only [replyForm, List.mem_append, List.not_mem_nil, or_false] at nul
  rcases nul with (inside | inside) | line
  · exact command.noNul inside
  · cases message with
    | none => simp at inside
    | some message =>
      rcases List.mem_cons.mp inside with gap | inside
      · exact absurd gap (by decide)
      · exact acapForm_noNul flag message inside
  · exact absurd line (by decide)

/-- The lines of a reply without a response code are the reply where a quoted message has nothing to
escape. -/
theorem plain_lines (flag : Flag) (command : CString) (message : Option CString) :
    (firstLine flag command message).content ++ crlf ++
        (match bodyLine flag message with
          | none => []
          | some body => body.content ++ crlf) = replyForm flag command none message ↔
      ∀ m, message = some m → ¬ m.Broken → dquote ∉ m.content ∧ backslash ∉ m.content := by
  cases message with
  | none => simp [firstLine, bodyLine, replyForm, joined]
  | some m =>
    by_cases broken : m.Broken
    · obtain ⟨header, body⟩ := acapFromStr_broken broken flag
      simp [firstLine, bodyLine, replyForm, content_joined, header, body, acapForm, broken]
    · obtain ⟨quoted, none_⟩ := acapFromStr_quoted broken flag
      have shape := escape_eq_self_iff m.content
      simp only [firstLine, bodyLine, replyForm, content_joined, quoted, none_, acapForm, broken,
        Option.map_some, Option.toList_some, List.flatMap_cons, List.flatMap_nil, List.append_nil,
        Option.bind_some, if_false, quotedWire, Option.some.injEq, forall_eq', not_false_eq_true,
        forall_const, ← shape, List.append_assoc, List.cons_append, List.append_cancel_left_eq,
        List.cons.injEq, true_and, List.nil_append]
      constructor
      · intro same
        exact (List.append_cancel_right same).symm
      · intro same
        rw [same]

/-- Without a response code exactly the reply is sent where its lines fit and nothing is to be
escaped. -/
theorem plain_replies (flag : Flag) (command : CString) (message : Option CString) (fuel : Nat)
    {t : Talk} (writable : t.Writable) :
    Replies flag command none message fuel t ↔
      (firstLine flag command message).length ≤ maxText ∧
        (∀ body, bodyLine flag message = some body → body.length ≤ maxText) ∧
        ∀ m, message = some m → ¬ m.Broken → dquote ∉ m.content ∧ backslash ∉ m.content := by
  rw [← plain_lines flag command message, Replies, run_plain flag command message fuel writable]
  have clean := replyForm_noNul flag command message
  constructor
  · rintro ⟨last, run, said⟩
    cases sent : t.spoken (rawSends (firstLine flag command message) t.stale) with
    | halted reason t' => simp [sent, Outcome.next] at run
    | looping t' => simp [sent, Outcome.next] at run
    | done status t' =>
      obtain ⟨_, line⟩ := Talk.spoken_sent writable sent
      obtain ⟨content, added, _, shape⟩ := line.said
      rw [sent, Outcome.next_done] at run
      cases body : bodyLine flag message with
      | none =>
        rw [body] at run
        simp only [Talk.finish, Outcome.done.injEq, true_and] at run
        subst run
        rw [added, List.append_cancel_left_eq] at said
        rw [← said] at clean
        rcases shape with ⟨fits, same⟩ | nul
        · exact ⟨fits, by simp, by rw [← said, same, List.append_nil]⟩
        · exact absurd nul clean
      | some b =>
        rw [body] at run
        obtain ⟨_, line'⟩ := Talk.spoken_sent line.writable run
        obtain ⟨content', added', _, shape'⟩ := line'.said
        rw [added', added, List.append_assoc, List.append_cancel_left_eq] at said
        rw [← said, List.mem_append, not_or] at clean
        rcases shape with ⟨fits, same⟩ | nul
        · rcases shape' with ⟨fits', same'⟩ | nul
          · refine ⟨fits, fun body' here => ?_, by rw [← said, same, same']⟩
            rw [Option.some.injEq] at here
            rwa [← here]
          · exact absurd nul clean.2
        · exact absurd nul clean.1
  · rintro ⟨fits, bodyFits, lines⟩
    obtain ⟨t', run, still, stale, added⟩ := Talk.spoken_fits writable fits
    rw [run, Outcome.next_done]
    cases body : bodyLine flag message with
    | none =>
      rw [body, List.append_nil] at lines
      exact ⟨t', rfl, by rw [added, lines]⟩
    | some b =>
      rw [body] at lines
      obtain ⟨last, run', _, _, added'⟩ := Talk.spoken_fits still (bodyFits b body)
      exact ⟨last, run', by rw [added', added, List.append_assoc, lines]⟩

/-! ## With a response code -/

/-- The parts of a response code are no longer than its form. -/
theorem managesieveResponseArgs_length (flag : Flag) (args : List CString) (current : CString) :
    ((managesieveResponseArgs flag args current).1.map fun part => part.length + 2).sum +
        (managesieveResponseArgs flag args current).2.length ≤
      current.length + (args.flatMap fun arg => space :: acapForm flag arg).length := by
  have gap : (lit " ").length = 1 := by decide
  have appended (left right : CString) : (left ++ right).length = left.length + right.length :=
    List.length_append
  induction args generalizing current with
  | nil => simp [managesieveResponseArgs]
  | cons arg args ih =>
    have form := acapFromStr_length arg flag
    rw [List.flatMap_cons, List.length_append, List.length_cons, managesieveResponseArgs]
    cases body : (acapFromStr arg flag).b with
    | none =>
      have rest := ih (current ++ lit " " ++ (acapFromStr arg flag).a)
      simp only [body, Option.elim_none] at form ⊢
      simp only [appended, gap] at rest
      omega
    | some b =>
      have rest := ih b
      simp only [body, Option.elim_some] at form ⊢
      simp only [List.map_cons, List.sum_cons, appended, gap]
      omega

/-- What the loop over parts sends is no longer than they are, with the command and the message. -/
theorem run_rc {message : Option CString} {fuel : Nat} (parts : List CString) :
    ∀ {command : Option CString} {t last : Talk} {status : Int}, t.Writable →
      (managesieveWriteRc message command parts).run Talk.serverStep fuel t = .done status last →
      status = 0 ∧ last.Writable ∧ ∃ content, last.log.saidAll = t.log.saidAll ++ content ∧
        content.length ≤ (parts.map fun part => part.length + 2).sum +
          (command.elim 0 fun command => command.length + 1) +
          (message.elim 0 fun message => message.length + 1) := by
  have gap : (lit " ").length = 1 := by decide
  have appended (left right : CString) : (left ++ right).length = left.length + right.length :=
    List.length_append
  induction parts with
  | nil =>
    intro command t last status writable run
    simp only [managesieveWriteRc, run_pure, Outcome.done.injEq] at run
    have ⟨zero, same⟩ := run
    subst same
    exact ⟨zero.symm, writable, [], by simp, by simp⟩
  | cons part parts ih =>
    intro command t last status writable run
    let tail := if parts.isEmpty then message else none
    have shown : ∃ first rest, [command, some part, tail].filterMap id = first :: rest ∧
        (joined first rest).length = part.length +
          (command.elim 0 fun command => command.length + 1) +
          (tail.elim 0 fun message => message.length + 1) := by
      cases command with
      | none =>
        cases here : tail with
        | none => exact ⟨part, [], rfl, rfl⟩
        | some message =>
          refine ⟨part, [message], rfl, ?_⟩
          simp only [joined, List.foldl_cons, List.foldl_nil, appended, gap, Option.elim_none,
            Option.elim_some]
          omega
      | some command =>
        cases here : tail with
        | none =>
          refine ⟨command, [part], rfl, ?_⟩
          simp only [joined, List.foldl_cons, List.foldl_nil, appended, gap, Option.elim_none,
            Option.elim_some]
          omega
        | some message =>
          refine ⟨command, [part, message], rfl, ?_⟩
          simp only [joined, List.foldl_cons, List.foldl_nil, appended, gap, Option.elim_some]
          omega
    have ⟨first, rest, strings, long⟩ := shown
    rw [managesieveWriteRc, run_bind] at run
    change ((managesieveWriteList [command, some part, tail]).run Talk.serverStep fuel t).next _ =
      _ at run
    rw [Talk.run_list strings] at run
    cases sent : t.spoken (rawSends (joined first rest) t.stale) with
    | halted reason t' => simp [sent, Outcome.next] at run
    | looping t' => simp [sent, Outcome.next] at run
    | done status' t' =>
      have ⟨zero, line⟩ := Talk.spoken_sent writable sent
      subst zero
      have ⟨content, added, length, _⟩ := line.said
      rw [sent, Outcome.next_done, run_ite, if_neg (show ¬ (0 : Int) < 0 by decide)] at run
      cases parts with
      | nil =>
        simp only [managesieveWriteRc, run_pure, Outcome.done.injEq] at run
        have ⟨zero, same⟩ := run
        subst same
        refine ⟨zero.symm, line.writable, content, added, ?_⟩
        have all : tail = message := rfl
        rw [all] at long
        rw [length, long, List.map_cons, List.map_nil, List.sum_cons, List.sum_nil]
        omega
      | cons next parts =>
        have ⟨zero, still, content', added', bound⟩ := ih line.writable run
        refine ⟨zero, still, content ++ content', by rw [added', added, List.append_assoc], ?_⟩
        have none_ : tail = none := rfl
        rw [none_, Option.elim_none] at long
        rw [Option.elim_none] at bound
        rw [List.length_append, length, long, List.map_cons, List.sum_cons]
        omega

/-- Without the first of them strings are shorter by a line end at least. -/
theorem sum_drop (finished : List CString) (last : CString) :
    (((finished ++ [last]).drop 1).map fun part => part.length + 2).sum ≤
      (finished.map fun part => part.length + 2).sum + last.length := by
  cases finished with
  | nil => exact Nat.zero_le _
  | cons front middle =>
    simp only [List.cons_append, List.drop_succ_cons, List.drop_zero, List.map_append,
      List.map_cons, List.map_nil, List.sum_append, List.sum_cons, List.sum_nil]
    omega

/-- A response code is not sent whole, whatever it is. -/
theorem rc_not_sent (flag : Flag) (command : CString) (rc : ManagesieveResponseCode)
    (message : Option CString) (fuel : Nat) {t : Talk} (writable : t.Writable) :
    ¬ Replies flag command (some rc) message fuel t := by
  intro ⟨last, run, said⟩
  have appended (left right : CString) : (left ++ right).length = left.length + right.length :=
    List.length_append
  -- The parts that the loop sees are shorter than the form of the response code.
  have parts : (((managesieveResponseStr rc flag).drop 1).map fun part => part.length + 2).sum ≤
      (responseCodeForm flag rc).length := by
    have whole := managesieveResponseArgs_length flag rc.arg (lit "(" ++ rc.atom)
    have opening : (lit "(").length = 1 := by decide
    have closing : (lit ")").length = 1 := by decide
    have brackets : (bytes "(").length = 1 ∧ (bytes ")").length = 1 := by decide
    have form : (responseCodeForm flag rc).length = 1 + rc.atom.content.length +
        (rc.arg.flatMap fun arg => space :: acapForm flag arg).length + 1 := by
      rw [responseCodeForm, List.length_append, List.length_append, List.length_append, brackets.1,
        brackets.2]
    rw [form]
    simp only [appended, opening] at whole
    have atom : rc.atom.length = rc.atom.content.length := rfl
    have seen := sum_drop (managesieveResponseArgs flag rc.arg (lit "(" ++ rc.atom)).1
      ((managesieveResponseArgs flag rc.arg (lit "(" ++ rc.atom)).2 ++ lit ")")
    rw [appended, closing] at seen
    change (((_ ++ [_] : List CString).drop 1).map fun part => part.length + 2).sum ≤ _
    omega
  unfold managesieveWrite at run
  rw [run_bind] at run
  change ((managesieveWriteRc ((message.map fun message => acapFromStr message flag).map (·.a))
    (some command) ((managesieveResponseStr rc flag).drop 1)).run Talk.serverStep fuel t).next _ =
      _ at run
  cases loop : (managesieveWriteRc ((message.map fun message => acapFromStr message flag).map
      (·.a)) (some command) ((managesieveResponseStr rc flag).drop 1)).run Talk.serverStep fuel
        t with
  | halted reason t' => rw [loop] at run; cases run
  | looping t' => rw [loop] at run; cases run
  | done status t' =>
    have ⟨zero, still, content, added, bound⟩ := run_rc _ writable loop
    subst zero
    rw [loop, Outcome.next_done, run_ite, if_neg (show ¬ (0 : Int) < 0 by decide)] at run
    have inner : (t'.finish ((message.map fun message => acapFromStr message flag).bind (·.b))) =
        .done 0 last := by
      rw [← Talk.run_body _ fuel t']
      exact run
    have total := congrArg List.length said
    cases message with
    | none =>
      simp only [Option.map_none, Option.bind_none, Talk.finish, Outcome.done.injEq,
        true_and] at inner
      subst inner
      rw [added] at total
      simp only [replyForm, List.length_append, List.length_cons, crlf, List.length_nil,
        Option.map_none, Option.elim_some, Option.elim_none, CString.length] at total bound parts
      omega
    | some m =>
      have form := acapFromStr_length m flag
      simp only [Option.map_some, Option.bind_some] at inner bound
      cases body : (acapFromStr m flag).b with
      | none =>
        rw [body] at inner
        simp only [Talk.finish, Outcome.done.injEq, true_and] at inner
        subst inner
        rw [added] at total
        simp only [body, replyForm, List.length_append, List.length_cons, crlf, List.length_nil,
          Option.elim_some, Option.elim_none, CString.length] at total bound form parts
        omega
      | some b =>
        rw [body, Talk.finish] at inner
        have ⟨_, line⟩ := Talk.spoken_sent still inner
        have ⟨content', added', length, _⟩ := line.said
        rw [added', added] at total
        simp only [body, replyForm, List.length_append, List.length_cons, crlf, List.length_nil,
          Option.elim_some, CString.length] at total bound form parts length
        omega

/-- On a connection whose writes succeed exactly the reply is sent where there is no response code, the
lines fit and nothing is to be escaped. -/
theorem managesieveWrite_replies_iff (flag : Flag) (command : CString)
    (rc : Option ManagesieveResponseCode) (message : Option CString) (fuel : Nat) (t : Talk)
    (writable : t.Writable) :
    Replies flag command rc message fuel t ↔ ReplyFits flag command rc message := by
  cases rc with
  | some rc =>
    exact iff_of_false (rc_not_sent flag command rc message fuel writable) fun fits => by
      simp [ReplyFits] at fits
  | none =>
    rw [plain_replies flag command message fuel writable, ReplyFits.eq_def]
    have gap : (lit " ").length = 1 := by decide
    have appended (left right : CString) : (left ++ right).length = left.length + right.length :=
      List.length_append
    cases message with
    | none => simp [firstLine, bodyLine, joined]
    | some m =>
      by_cases broken : m.Broken
      · obtain ⟨header, body⟩ := acapFromStr_broken broken flag
        have long : (acapFromStr m flag).a.length =
            (literalHeader (flag.has perditionClient) m.length).length :=
          congrArg List.length header
        simp [firstLine, bodyLine, joined, body, broken, appended, gap, long]
      · obtain ⟨quoted, none_⟩ := acapFromStr_quoted broken flag
        have long : (acapFromStr m flag).a.length = m.length + 2 := by
          have same := congrArg List.length quoted
          simp only [List.length_cons, List.length_append, List.length_nil] at same
          exact same
        simp only [firstLine, bodyLine, joined, none_, broken, appended, gap, long,
          Option.map_some, Option.toList_some, List.foldl_cons, List.foldl_nil, Option.bind_some,
          reduceCtorEq, false_implies, implies_true, true_and, Option.some.injEq, forall_eq',
          not_false_eq_true, forall_const, Option.isNone_none, if_false]
        exact And.comm

/-- A message without a response code is replied. -/
theorem managesieveWrite_replies_ok :
    Replies perditionServer (lit "OK") none (some (lit "Begin TLS negotiation, mate")) 1
      (Talk.reading []) :=
  (managesieveWrite_replies_iff perditionServer (lit "OK") none
    (some (lit "Begin TLS negotiation, mate")) 1 (Talk.reading [])
    (fun ok member => by simp [Talk.reading] at member)).mpr ⟨rfl, by
      dsimp only
      rw [if_neg (by decide +kernel)]
      decide +kernel⟩

/-- Of the reply to a NOOP with a tag nothing is sent. -/
theorem managesieveWrite_tag_lost :
    ¬ Replies perditionServer (lit "OK") (some ⟨lit "TAG", [lit "sync"]⟩)
      (some (lit "NOOP completed, mate")) 1 (Talk.reading []) := by
  intro ⟨last, run, said⟩
  have silent : (managesieveWrite perditionServer (lit "OK") (some ⟨lit "TAG", [lit "sync"]⟩)
      (some (lit "NOOP completed, mate"))).run Talk.serverStep 1 (Talk.reading []) =
        .done 0 (Talk.reading []) := rfl
  rw [silent, Outcome.done.injEq] at run
  rw [← run.2] at said
  revert said
  decide +kernel

end Perdition
