import Perdition.Verif.Returns
import Perdition.Verif.Streams

/-!
# What is assembled in fixed buffers

`__str_vwrite` places a message in `__str_write_buf`, and `__imap4_write_fmt` the format of a reply in
`__imap4_write_fmt_str`. Both trust the lengths they compute. Here is from which length on they leave
their buffer, and that everything before that length is placed where it is sent from.
-/
namespace Perdition

open Lib Program

/-! ## The write buffer -/

/-- Neither memory outside the write buffer nor bytes of an earlier message in it are used. -/
def placing : Contract IoSig where
  allowed
    | .stale _ => False
    | .fault why => why ≠ .strVwrite
    | _ => True
  returns _ _ := True

/-- A message is placed inside the write buffer, and every byte that is sent was placed. -/
structure StrVwriteBounded (flag : Flag) (nargs : Nat) (fmt : CString) (text : Option (List Byte)) :
    Prop where
  /-- The count is that of bytes placed by this call. -/
  counted : ∀ w, strVwriteBuf flag nargs fmt text = some w → ∀ i < w.count, w.Placed i
  /-- The bytes placed are those of the format on the fast path, and lie in the buffer on the slow
  one. -/
  inside : ∀ w, strVwriteBuf flag nargs fmt text = some w → strVwriteFast flag nargs ∨ w.inside
  /-- `str_vwrite` uses nothing else. -/
  sent : (strVwrite flag nargs fmt text).Obeys placing fun _ => True

/-- The message is the format itself, or it is refused, or its text leaves room for a line end. -/
def StrVwriteFits (flag : Flag) (nargs : Nat) (fmt : CString) (text : Option (List Byte)) : Prop :=
  strVwriteFast flag nargs ∨ fmtArgs fmt.content ≠ nargs ∨
    ∀ content, text = some content → content.length + 2 ≤ strWriteBufLen

/-- Sending uses no buffer. -/
theorem send_placing (content : List Byte) : (send content).Obeys placing fun _ => True :=
  obeys_step trivial fun ok _ => by cases ok <;> trivial

/-- The fast path returns the format. -/
theorem strVwriteBuf_fast {flag : Flag} {nargs : Nat} (fmt : CString) (text : Option (List Byte))
    (fast : strVwriteFast flag nargs) :
    strVwriteBuf flag nargs fmt text = some ⟨fmt.content, none, fmt.length⟩ := by
  have both : nargs = 0 ∧ flag.has writeStrNoCllf := by simpa [strVwriteFast] using fast
  unfold strVwriteBuf
  rw [if_pos both]

/-- The slow path places the text and, where it is wanted, a line end. -/
theorem strVwriteBuf_slow {flag : Flag} {nargs : Nat} {fmt : CString} (content : List Byte)
    (slow : strVwriteFast flag nargs = false) (count : fmtArgs fmt.content = nargs) :
    strVwriteBuf flag nargs fmt (some content) =
      some (if flag.has writeStrNoCllf then ⟨content.take maxText ++ [0], none, content.length⟩
        else ⟨content.take maxText ++ [0], some content.length, content.length + 2⟩) := by
  have other : ¬ (nargs = 0 ∧ flag.has writeStrNoCllf) := by simpa [strVwriteFast] using slow
  unfold strVwriteBuf
  rw [if_neg other, if_neg (by simpa using count)]
  simp only [maxText]
  split <;> rfl

/-- A message that is refused is not placed. -/
theorem strVwriteBuf_refused {flag : Flag} {nargs : Nat} {fmt : CString}
    {text : Option (List Byte)} (slow : strVwriteFast flag nargs = false)
    (refused : fmtArgs fmt.content ≠ nargs ∨ text = none) :
    strVwriteBuf flag nargs fmt text = none := by
  have other : ¬ (nargs = 0 ∧ flag.has writeStrNoCllf) := by simpa [strVwriteFast] using slow
  unfold strVwriteBuf
  rw [if_neg other]
  rcases refused with count | rfl
  · rw [if_pos count]
  · split <;> rfl

/-- The last byte that is sent was placed, or lies in the buffer, only where the text fits. -/
theorem strVwrite_fits_of_bounded {flag : Flag} {nargs : Nat} {fmt : CString}
    {text : Option (List Byte)} (bounded : StrVwriteBounded flag nargs fmt text) :
    StrVwriteFits flag nargs fmt text := by
  by_cases fast : strVwriteFast flag nargs
  · exact .inl fast
  by_cases count : fmtArgs fmt.content = nargs
  · refine .inr (.inr ?_)
    rintro content rfl
    have buffer := strVwriteBuf_slow content (by simpa using fast) count
    by_cases noEnd : flag.has writeStrNoCllf
    · rw [if_pos noEnd] at buffer
      by_contra long
      have last := bounded.counted _ buffer (content.length - 1) (by
        simp only [strWriteBufLen, maxLineLength] at long
        dsimp only
        omega)
      simp only [StrVwrite.Placed, List.length_append, List.length_take, List.length_singleton,
        reduceCtorEq, false_and, exists_false, or_false, maxText] at last
      simp only [strWriteBufLen, maxLineLength] at last long
      omega
    · rw [if_neg noEnd] at buffer
      have inside := (bounded.inside _ buffer).resolve_left fast
      simp only [StrVwrite.inside, Bool.and_eq_true, decide_eq_true_eq] at inside
      exact inside.2
  · exact .inr (.inl count)

/-- A text that leaves room for a line end is placed and sent from where it is. -/
theorem strVwrite_bounded_of_fits {flag : Flag} {nargs : Nat} {fmt : CString}
    {text : Option (List Byte)} (fits : StrVwriteFits flag nargs fmt text) :
    StrVwriteBounded flag nargs fmt text := by
  by_cases fast : strVwriteFast flag nargs
  · have buffer := strVwriteBuf_fast fmt text fast
    have both : nargs = 0 ∧ flag.has writeStrNoCllf := by simpa [strVwriteFast] using fast
    refine ⟨fun w placed i sent => ?_, fun w placed => .inl fast, ?_⟩
    · rw [buffer, Option.some.injEq] at placed
      subst placed
      exact .inl sent
    · rw [both.1, strVwrite_fast both.2]
      exact send_placing _
  have slow : strVwriteFast flag nargs = false := by simpa using fast
  by_cases refused : fmtArgs fmt.content ≠ nargs ∨ text = none
  · have buffer := strVwriteBuf_refused slow refused
    refine ⟨fun w placed => by simp [buffer] at placed, fun w placed => by simp [buffer] at placed, ?_⟩
    rw [strVwrite, buffer]
    trivial
  obtain ⟨count, content, rfl⟩ : fmtArgs fmt.content = nargs ∧ ∃ content, text = some content := by
    cases text <;> simp_all
  have short : content.length + 2 ≤ strWriteBufLen :=
    ((fits.resolve_left fast).resolve_left (by simpa using count)) content rfl
  have buffer := strVwriteBuf_slow content slow count
  have kept : (content.take maxText ++ [0]).length = min 4093 content.length + 1 := by
    simp [show maxText = 4093 from rfl]
  have size : strWriteBufLen = 4096 := rfl
  rw [size] at short
  by_cases noEnd : flag.has writeStrNoCllf
  · rw [if_pos noEnd] at buffer
    have inside : (StrVwrite.mk (content.take maxText ++ [0]) none content.length).inside := by
      simp only [StrVwrite.inside, kept, size, Bool.and_true, Bool.and_eq_true, decide_eq_true_iff]
      omega
    refine ⟨fun w placed i sent => ?_, fun w placed => .inr ?_, ?_⟩
    · rw [buffer, Option.some.injEq] at placed
      subst placed
      dsimp only at sent
      exact .inl (by dsimp only; omega)
    · rw [buffer, Option.some.injEq] at placed
      rwa [← placed]
    · unfold strVwrite
      rw [buffer]
      dsimp only
      rw [inside, if_neg (by simp), if_neg (by rw [List.length_take, kept]; omega)]
      exact send_placing _
  · rw [if_neg noEnd] at buffer
    have inside : (StrVwrite.mk (content.take maxText ++ [0]) (some content.length)
        (content.length + 2)).inside := by
      simp only [StrVwrite.inside, kept, size, Bool.and_eq_true, decide_eq_true_iff]
      omega
    refine ⟨fun w placed i sent => ?_, fun w placed => .inr ?_, ?_⟩
    · rw [buffer, Option.some.injEq] at placed
      subst placed
      dsimp only at sent
      by_cases front : i < (content.take maxText ++ [0]).length
      · exact .inl front
      · -- the line end follows the text, over its NUL
        exact .inr ⟨content.length, rfl, by omega⟩
    · rw [buffer, Option.some.injEq] at placed
      rwa [← placed]
    · unfold strVwrite
      rw [buffer]
      dsimp only
      rw [inside, if_neg (by simp), if_neg (by rw [List.length_take, kept]; omega)]
      exact send_placing _

/-- The text of the reply to `USER`. -/
theorem pop3UserReply_text (name : CString) :
    vformat (lit "+OK %s\r\n").content [.str (lit "USER " ++ name ++ lit " set, mate")] =
      some (bytes "+OK USER " ++ name.content ++ bytes " set, mate\r\n") := by
  have front : (lit "USER ").content = bytes "USER " := content_lit (by decide)
  have back : (lit " set, mate").content = bytes " set, mate" := content_lit (by decide)
  have format : (lit "+OK %s\r\n").content = bytes "+OK " ++ (bytes "%s" ++ crlf) :=
    content_lit (by decide)
  rw [format, vformat_plain_append (by decide), vformat_string, Option.map_some]
  simp only [CString.content_append, front, back, List.append_assoc]
  rfl

/-- `__imap4_write_fmt` writes nothing beyond its buffer. -/
def assembling : Contract IoSig where
  allowed
    | .fault why => why ≠ .imap4WriteFmt
    | _ => True
  returns _ _ := True

/-- The flag, the command and the format of each kind of reply that the program gives with the tag of
a client. -/
inductive Imap4Reply : Flag → Option CString → Option CString → Prop where
  /-- A command that is not understood. -/
  | bad : Imap4Reply nullFlag (some (lit "BAD")) (some (lit "%s"))
  /-- A command that is done. -/
  | ok : Imap4Reply nullFlag (some (lit "OK")) (some (lit "%s"))
  /-- A command that is refused. -/
  | no : Imap4Reply nullFlag (some (lit "NO")) (some (lit "%s"))
  /-- The response line of the real server. -/
  | response : Imap4Reply writeStrNoCllf none (some (lit "%s"))

/-- Every reply with a tag fits the buffer of `__imap4_write_fmt`. -/
structure Imap4TagFits (tag : Token) : Prop where
  /-- What is assembled for a reply leaves room for a NUL. -/
  lines : ∀ flag command fmt, Imap4Reply flag command fmt →
    (imap4FmtLine flag (some tag) command fmt).length < maxLineLength
  /-- The commands of `imap4_in_get_auth` write nothing beyond the buffer. -/
  commands : ∀ opt platform tlsFlags tlsState t q,
    (imap4InCommand opt platform tlsFlags tlsState tag t q).Obeys assembling fun _ => True
  /-- Neither does an answer to a line without a command. -/
  bad : ∀ reason, (imap4InBad tag reason).Obeys assembling fun _ => True
  /-- Nor do the failures and the success that the session reports. -/
  typed : ∀ type str, (Protocol.writeStr .imap4 nullFlag (some tag) (some (Protocol.type .imap4 type))
    (some str)).Obeys assembling fun _ => True
  /-- Nor does the response line of the real server. -/
  response : ∀ str, (Protocol.writeStr .imap4 writeStrNoCllf (some tag) none (some str)).Obeys
    assembling fun _ => True

theorem strVwrite_assembling (flag : Flag) (nargs : Nat) (fmt : CString)
    (text : Option (List Byte)) :
    (strVwrite flag nargs fmt text).Obeys assembling fun _ => True :=
  strVwrite_obeys (fun _ => trivial) (fun _ => trivial) (by simp [assembling]) flag nargs fmt text

/-- A string is written within the buffer where its line fits. -/
theorem imap4WriteStr_assembling {flag : Flag} {tag : Option Token} {command : Option CString}
    {str : CString}
    (fits : (imap4FmtLine flag tag command (some (lit "%s"))).length < maxLineLength) :
    (imap4WriteStr flag tag command (some str)).Obeys assembling fun _ => True := by
  simp only [imap4WriteStr, imap4Write, imap4WriteFmt, if_pos fits]
  split
  · rename_i none_
    split at none_ <;> simp at none_
  · rename_i none_
    split at none_ <;> simp at none_
  · exact strVwrite_assembling _ _ _ _

/-- The length of a reply with a command. -/
theorem imap4FmtLine_length (tag : Token) (command : CString) :
    (imap4FmtLine nullFlag (some tag) (some command) (some (lit "%s"))).length =
      tag.len + command.length + 6 := by
  have format : (lit "%s").content = bytes "%s" := content_lit (by decide)
  have some_ : (lit "%s").isEmpty = false := by decide
  simp only [imap4FmtLine, some_, nullFlag_end, Bool.false_eq_true, if_false, format,
    List.length_append, List.length_cons, crlf, List.length_nil, Token.len, CString.length,
    show (bytes "%s").length = 2 by decide]
  omega

/-- An answer that only writes stays within the buffer. -/
theorem imap4InAnswer_assembling {command : Dialogue Int}
    (holds : command.Obeys assembling fun _ => True) :
    (imap4InAnswer command).Obeys assembling fun _ => True :=
  obeys_then holds fun _ => obeys_ite (fun _ => trivial) fun _ => trivial

section fits

variable {tag : Token} (short : tag.len ≤ 4086)
include short

/-- A reply with a command of at most three characters fits. -/
theorem imap4Tagged_fits {command : CString} (brief : command.length ≤ 3) :
    (imap4FmtLine nullFlag (some tag) (some command) (some (lit "%s"))).length <
      maxLineLength := by
  rw [imap4FmtLine_length, maxLineLength]
  omega

/-- The response line of the real server fits. -/
theorem imap4Response_fits :
    (imap4FmtLine writeStrNoCllf (some tag) none (some (lit "%s"))).length < maxLineLength := by
  have format : (lit "%s").content = bytes "%s" := content_lit (by decide)
  have some_ : (lit "%s").isEmpty = false := by decide
  have noEnd : writeStrNoCllf.has writeStrNoCllf := by decide
  simp only [imap4FmtLine, some_, noEnd, Bool.false_eq_true, if_false, if_true, format,
    List.length_append, List.length_cons, List.append_nil, maxLineLength,
    show (bytes "%s").length = 2 by decide]
  simp only [Token.len] at short
  omega

theorem imap4InBad_assembling (reason : CString) :
    (imap4InBad tag reason).Obeys assembling fun _ => True :=
  obeys_then (imap4WriteStr_assembling (imap4Tagged_fits short (by decide))) fun _ =>
    obeys_ite (fun _ => trivial) fun _ => trivial

theorem imap4InCheckNoArg_assembling {q : Queue} {command : CString} {rest : Round}
    (holds : rest.Obeys assembling fun _ => True) :
    (imap4InCheckNoArg tag q command rest).Obeys assembling fun _ => True :=
  obeys_ite (fun _ => imap4InBad_assembling short _) fun _ => holds

/-- A reply with OK stays within the buffer. -/
theorem imap4Ok_assembling (str : CString) :
    (imap4WriteStr nullFlag (some tag) (some (lit "OK")) (some str)).Obeys assembling
      fun _ => True :=
  imap4WriteStr_assembling (imap4Tagged_fits short (by decide))

end fits

/-- The argument of a command is read within the buffer. -/
theorem imap4TokenWrapper_assembling (platform : Platform) (q : Queue) (t : Token) :
    (imap4TokenWrapper platform q t).Obeys assembling fun _ => True := by
  unfold imap4TokenWrapper
  split
  · exact fault_obeys (by simp [assembling])
  · trivial
  · trivial
  · refine obeys_ite (fun _ => trivial) fun _ => ?_
    dsimp only
    refine obeys_ite (fun _ => obeys_then (imap4WriteStr_assembling
      (imap4Tagged_fits (by decide) (by decide))) fun _ => ?_) fun _ => ?_
    all_goals
      refine obeys_ite (fun _ => trivial) fun _ => ?_
      refine obeys_then (tokenRead_obeys trivial _ _ _) fun read => ?_
      split <;> trivial

section login

variable {tag : Token} (short : tag.len ≤ 4086)
include short

theorem imap4InLoginPasswd_assembling (platform : Platform) (q : Queue) (status : Imap4Type)
    (name : CString) :
    (imap4InLoginPasswd platform tag q status name).Obeys assembling fun _ => True := by
  unfold imap4InLoginPasswd
  split
  · refine obeys_then (imap4TokenWrapper_assembling _ _ _) fun r => ?_
    split
    · exact imap4InBad_assembling short _
    · refine obeys_ite (fun _ => imap4InBad_assembling short _) fun _ => ?_
      split
      · exact fault_obeys (by simp [assembling])
      · trivial
  · exact imap4InBad_assembling short _

theorem imap4InLoginName_assembling (platform : Platform) (q : Queue) (status : Imap4Type)
    (t : Token) : (imap4InLoginName platform tag q status t).Obeys assembling fun _ => True := by
  unfold imap4InLoginName
  refine obeys_ite (fun _ => imap4InBad_assembling short _) fun _ => ?_
  split
  · exact fault_obeys (by simp [assembling])
  · exact imap4InLoginPasswd_assembling short _ _ _ _

theorem imap4InLogin_assembling (platform : Platform) (q : Queue) :
    (imap4InLogin platform tag q).Obeys assembling fun _ => True := by
  unfold imap4InLogin
  refine obeys_ite (fun _ => imap4InBad_assembling short _) fun _ => ?_
  split
  · trivial
  · refine obeys_then (imap4TokenWrapper_assembling _ _ _) fun r => ?_
    split
    · exact imap4InBad_assembling short _
    · exact imap4InLoginName_assembling short _ _ _ _
    · refine obeys_then (readLine_obeys trivial _ _ _) fun line => ?_
      split
      · trivial
      · split
        · exact imap4InLoginName_assembling short _ _ _ _
        · exact imap4InBad_assembling short _

theorem imap4InCommand_assembling (opt : Options) (platform : Platform) (tlsFlags tlsState : Flag)
    (t : Token) (q : Queue) :
    (imap4InCommand opt platform tlsFlags tlsState tag t q).Obeys assembling fun _ => True := by
  have untagged {command str : CString} (brief : command.length ≤ 16) :
      (imap4WriteStr nullFlag none (some command) (some str)).Obeys assembling
        fun _ => True := by
    refine imap4WriteStr_assembling ?_
    have line : imap4FmtLine nullFlag none (some command) (some (lit "%s")) =
        imap4FmtLine nullFlag (some ⟨imap4Untagged, tokenNone⟩) (some command) (some (lit "%s")) :=
      rfl
    rw [line, imap4FmtLine_length, maxLineLength]
    have star : Token.len ⟨imap4Untagged, tokenNone⟩ = 1 := by decide
    omega
  unfold imap4InCommand
  refine obeys_ite (fun _ => imap4InBad_assembling short _) fun _ => ?_
  refine obeys_ite (fun _ => imap4InCheckNoArg_assembling short
    (imap4InAnswer_assembling ?noop)) fun _ => ?_
  case noop =>
    exact obeys_then (imap4Ok_assembling short _) fun _ =>
      obeys_ite (fun _ => trivial) fun _ => trivial
  refine obeys_ite (fun _ => imap4InCheckNoArg_assembling short ?starttls) fun _ => ?_
  case starttls =>
    refine obeys_ite (fun _ => imap4InBad_assembling short _) fun _ => ?_
    refine obeys_step trivial fun (type : IoType) _ => ?_
    refine obeys_ite (fun _ => ?_) fun _ => imap4InBad_assembling short _
    exact obeys_then (imap4Ok_assembling short _) fun _ =>
      obeys_ite (fun _ => trivial) fun _ => trivial
  refine obeys_ite (fun _ => imap4InCheckNoArg_assembling short
    (imap4InAnswer_assembling ?capability)) fun _ => ?_
  case capability =>
    unfold imap4InCapabilityCmd
    split
    · exact fault_obeys (by simp [assembling])
    · refine obeys_then (untagged (by decide)) fun _ => obeys_ite (fun _ => trivial) fun _ => ?_
      exact obeys_then (imap4Ok_assembling short _) fun _ => trivial
  refine obeys_ite (fun _ => obeys_ite (fun _ => imap4InBad_assembling short _) fun _ =>
    imap4InAnswer_assembling ?authenticate) fun _ => ?_
  case authenticate =>
    exact obeys_then (imap4WriteStr_assembling (imap4Tagged_fits short (by decide))) fun _ =>
      obeys_ite (fun _ => trivial) fun _ => trivial
  refine obeys_ite (fun _ => imap4InCheckNoArg_assembling short ?logout) fun _ => ?_
  case logout =>
    refine obeys_then ?_ fun _ => obeys_ite (fun _ => trivial) fun _ => trivial
    refine obeys_then (untagged (by decide)) fun _ => obeys_ite (fun _ => trivial) fun _ => ?_
    exact obeys_then (imap4Ok_assembling short _) fun _ =>
      obeys_ite (fun _ => trivial) fun _ => trivial
  exact obeys_ite (fun _ => imap4InLogin_assembling short _ _) fun _ =>
    imap4InBad_assembling short _

end login

/-- The replies to a client with this tag stay within the buffer of `__imap4_write_fmt` exactly where
the tag leaves room for the longest of them. -/
theorem imap4TagFits_iff (tag : Token) : Imap4TagFits tag ↔ tag.len ≤ 4086 := by
  refine ⟨fun fits => ?_, fun short => ⟨?_, imap4InCommand_assembling short,
    imap4InBad_assembling short, ?_, ?_⟩⟩
  · have line := fits.lines _ _ _ .bad
    rw [imap4FmtLine_length, show (lit "BAD").length = 3 by decide, maxLineLength] at line
    omega
  · intro flag command fmt reply
    cases reply with
    | response => exact imap4Response_fits short
    | _ => exact imap4Tagged_fits short (by decide)
  · intro type str
    refine imap4WriteStr_assembling (imap4Tagged_fits short ?_)
    cases type <;> decide
  · exact fun str => imap4WriteStr_assembling (imap4Response_fits short)

/-- A reply that leaves no room for its NUL is written beyond the buffer. -/
theorem imap4InBad_beyond {tag : Token} (long : 4086 < tag.len) (reason : CString) (fuel : Nat)
    (ch : Channel) :
    (imap4InBad tag reason).run Channel.step fuel ch = .halted .imap4WriteFmt ch := by
  have full : ¬ (imap4FmtLine nullFlag (some tag) (some (lit "BAD")) (some (lit "%s"))).length <
      maxLineLength := by
    rw [imap4FmtLine_length, maxLineLength, show (lit "BAD").length = 3 by decide]
    omega
  simp only [imap4InBad, imap4WriteStr, imap4Write, imap4WriteFmt, Option.isNone_some,
    Bool.and_self, Bool.false_eq_true, if_false, full]
  rfl

/-- An unknown command with a long tag is read, and its answer is written beyond the buffer. -/
theorem imap4InGetAuth_beyond {opt : Options} {platform : Platform} {tlsFlags tlsState : Flag}
    {buf : List Byte} {fuel : Nat} {ch : Channel} (word : ∀ b ∈ buf, imap4TagRefuses b = false)
    (long : 4086 < buf.length) (short : buf.length < maxLineLength)
    (sent : ch.stream = buf ++ space :: (bytes "X" ++ crlf ++ []))
    (enough : ch.stream.length < fuel + 1) :
    ∃ after, (imap4InGetAuth opt platform tlsFlags tlsState).run Channel.step (fuel + 1) ch =
      .halted .imap4WriteFmt after := by
  have kept := kept_word buf fun b member => by
    have accepted := word b member
    refine ⟨?_, ?_, ?_, ?_⟩ <;> rintro rfl <;> exact absurd accepted (by decide)
  have verified : imap4InVerifyTagStr ⟨buf, tokenNone⟩ := by
    have some_ : buf.length ≠ 0 := by omega
    have all : (buf.all fun b => !imap4TagRefuses b) = true :=
      List.all_eq_true.mpr fun b member => by rw [word b member]; rfl
    rw [imap4InVerifyTagStr, Token.len, all]
    simp [some_]
  have line : scanLine tokenImap4 0 ch.stream =
      some ([⟨buf, tokenNone⟩, ⟨bytes "X", tokenEol⟩], []) := by
    rw [sent, scanLine_word kept.1 kept.2 short, scanLine_lastWord (by
      exact ⟨by decide, by decide, by decide, trivial⟩) (by decide)]
    rfl
  obtain ⟨after, run, -⟩ := readLine_streamed ch.streamed
    (show tokenImap4.has tokenImap4Literal = false by decide) 0 (.refl ch) enough
  rw [line] at run
  have plain : Token.isEol ⟨buf, tokenNone⟩ = false := Token.isEol_none buf
  refine ⟨after, ?_⟩
  rw [imap4InGetAuth, run_loop, iterate, imap4InRound, run_bind, run]
  simp only [Option.map_some, Outcome.next_done, verified, Bool.not_true, Bool.false_eq_true,
    if_false, plain]
  rw [show imap4InCommand opt platform tlsFlags tlsState ⟨buf, tokenNone⟩ ⟨bytes "X", tokenEol⟩ [] =
    imap4InBad ⟨buf, tokenNone⟩ (lit "Unrecognised command, mate") from rfl,
    @imap4InBad_beyond ⟨buf, tokenNone⟩ long]
  rfl

/-- A tag of 4087 bytes is read and accepted, and the answer to an unknown command with it is written
beyond the buffer. -/
theorem imap4TagFits_beyond :
    (∃ after, (imap4InGetAuth Options.sample Platform.sample sslModeEmpty sslModeEmpty).run
      Channel.step 4092 (Channel.reading [List.replicate 4087 97 ++ bytes " X\r\n"]) =
        .halted .imap4WriteFmt after) ∧
    ¬ Imap4TagFits ⟨List.replicate 4087 97, tokenNone⟩ := by
  have length : (List.replicate 4087 (97 : Byte)).length = 4087 := List.length_replicate
  have word : ∀ b ∈ List.replicate 4087 (97 : Byte), imap4TagRefuses b = false :=
    fun b member => by rw [List.eq_of_mem_replicate member]; decide
  generalize List.replicate 4087 (97 : Byte) = buf at length word ⊢
  have stream : (Channel.reading [buf ++ bytes " X\r\n"]).stream =
      buf ++ space :: (bytes "X" ++ crlf ++ []) :=
    Channel.stream_reading (by simp [bytes])
  refine ⟨imap4InGetAuth_beyond word (by omega) (by rw [maxLineLength]; omega) stream ?_, ?_⟩
  · rw [stream, List.length_append, length]
    decide
  · intro fits
    have line := fits.lines _ _ _ .bad
    rw [imap4FmtLine_length, Token.len, length] at line
    exact absurd line (by decide)

end Perdition
