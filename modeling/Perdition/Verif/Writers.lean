import Perdition.Acap

/-!
# What the writers send

A message whose text fits the write buffer is sent by one write of exactly its bytes. The equations
below say so for `str_vwrite`, and from it for the writer of each protocol.
-/
namespace Perdition

/-- One write of these bytes, with the status of the writers. -/
def send (content : List Byte) : Dialogue Int := do
  if ← ioWrite content then return 0 else return -1

/-- The most bytes of text the slow path of `__str_vwrite` places before its NUL. -/
def maxText : Nat := strWriteBufLen - 2 - 1

/-! ## Formats -/

/-- Bytes without a percent sign. -/
abbrev Plain (text : List Byte) : Prop := percent ∉ text

/-- The rest of a plain text is plain. -/
theorem Plain.tail {b : Byte} {text : List Byte} (plain : Plain (b :: text)) : Plain text :=
  fun member => plain (List.mem_cons_of_mem b member)

/-- The first byte of a plain text is no percent sign. -/
theorem Plain.head {b : Byte} {text : List Byte} (plain : Plain (b :: text)) : b ≠ 37 :=
  fun same => plain (by simp [percent, same])

/-- Plain texts make a plain text. -/
theorem Plain.append {front rest : List Byte} (plainFront : Plain front) (plainRest : Plain rest) :
    Plain (front ++ rest) :=
  fun member => (List.mem_append.mp member).elim plainFront plainRest

theorem vformat_plain_append {text rest : List Byte} {args : List Arg} (plain : Plain text) :
    vformat (text ++ rest) args = (vformat rest args).map (text ++ ·) := by
  induction text with
  | nil => simp
  | cons b text ih =>
    have other := plain.head
    rw [List.cons_append, vformat.eq_5 _ _ _ (by simp [other]) (by simp [other]) (by simp [other])
      (by simp [other]), ih plain.tail]
    simp [Function.comp_def]

theorem fmtArgs_plain_append {text rest : List Byte} (plain : Plain text) :
    fmtArgs (text ++ rest) = fmtArgs rest := by
  induction text with
  | nil => simp
  | cons b text ih =>
    have other := plain.head
    rw [List.cons_append, fmtArgs.eq_3 _ _ (by simp [other]) (by simp [other]), ih plain.tail]

/-! ## `str_vwrite` -/

/-- The fast path sends the format. -/
theorem strVwrite_fast {flag : Flag} {fmt : CString} {text : Option (List Byte)}
    (noEnd : flag.has writeStrNoCllf) : strVwrite flag 0 fmt text = send fmt.content := by
  have whole : strVwriteBuf flag 0 fmt text = some ⟨fmt.content, none, fmt.content.length⟩ := by
    simp [strVwriteBuf, noEnd, CString.length]
  have fast : strVwriteFast flag 0 = true := by simp [strVwriteFast, noEnd]
  simp [strVwrite, whole, fast, send]

/-- A text that fits is sent as it is, followed by a line end where one is wanted. -/
theorem strVwrite_text {flag : Flag} {nargs : Nat} {fmt : CString} {text : List Byte}
    (slow : ¬ (nargs = 0 ∧ flag.has writeStrNoCllf)) (count : fmtArgs fmt.content = nargs)
    (fits : text.length ≤ maxText) :
    strVwrite flag nargs fmt (some text) =
      send (text ++ if flag.has writeStrNoCllf then [] else crlf) := by
  have kept : text.take (strWriteBufLen - 2 - 1) = text := List.take_of_length_le fits
  have room : text.length + 2 ≤ strWriteBufLen := by
    simp only [maxText, strWriteBufLen, maxLineLength] at *; omega
  have whole : strVwriteBuf flag nargs fmt (some text) = some ⟨text ++ [0],
      if flag.has writeStrNoCllf then none else some text.length,
      if flag.has writeStrNoCllf then text.length else text.length + 2⟩ := by
    simp only [strVwriteBuf, slow, if_false, count, ne_eq, not_true_eq_false, kept]
    split <;> rfl
  have placed : text.length + 1 ≤ strWriteBufLen := by omega
  have counted : text.length ≤ strWriteBufLen := by omega
  simp only [strVwrite, whole, send]
  cases end_ : flag.has writeStrNoCllf <;>
    simp [StrVwrite.inside, room, placed, counted]

/-- A format with a plain front and a line end of its own is sent expanded. -/
theorem strWrite_expanded {flag : Flag} {front rest body : List Byte} {nargs : Nat}
    {args : List Arg} (noEnd : flag.has writeStrNoCllf) (noNul : 0 ∉ front ++ rest)
    (plain : Plain front) (count : fmtArgs rest = nargs) (positive : nargs ≠ 0)
    (expand : vformat rest args = some body) (fits : front.length + body.length ≤ maxText) :
    strWrite flag nargs (cstr (front ++ rest)) args = send (front ++ body) := by
  have text : vformat (front ++ rest) args = some (front ++ body) := by
    rw [vformat_plain_append plain, expand, Option.map_some]
  have counted : fmtArgs (front ++ rest) = nargs := by rw [fmtArgs_plain_append plain, count]
  unfold strWrite
  rw [cstr_content noNul, text, strVwrite_text (by simp [positive])
    (by rw [cstr_content noNul]; exact counted) (by simpa using fits)]
  simp [noEnd]

/-- A string of the source is its own bytes. -/
theorem content_lit {text : String} (noNul : 0 ∉ bytes text) : (lit text).content = bytes text :=
  cstr_content noNul

theorem nullFlag_noEnd : (nullFlag ||| writeStrNoCllf).has writeStrNoCllf := by decide

theorem nullFlag_end : nullFlag.has writeStrNoCllf = false := by decide

/-- The format `%s` and a line end stand for the string and a line end. -/
theorem vformat_string (str : CString) :
    vformat (bytes "%s" ++ crlf) [.str str] = some (str.content ++ crlf) := by
  change vformat [37, 115, 13, 10] [.str str] = _
  simp [vformat, crlf, cr, lf]

/-! ## POP3 -/

/-- A command without an argument. -/
theorem pop3WriteStr_command {command : CString} :
    pop3WriteStr nullFlag (some command) none = send (command.content ++ crlf) := by
  have noNul : 0 ∉ command.content ++ crlf := by
    simpa using ⟨command.noNul, by decide⟩
  simp only [pop3WriteStr, pop3Write, pop3WriteFmt, strWrite, nullFlag_end, List.append_nil,
    Bool.false_eq_true, if_false]
  rw [strVwrite_fast nullFlag_noEnd, cstr_content noNul]

/-- A command with a format for its arguments. -/
theorem pop3Write_expanded {command fmt : CString} {nargs : Nat} {args : List Arg}
    {body : List Byte} (plain : Plain command.content) (given : fmt.isEmpty = false)
    (count : fmtArgs (fmt.content ++ crlf) = nargs) (positive : nargs ≠ 0)
    (expand : vformat (fmt.content ++ crlf) args = some body)
    (fits : command.length + 1 + body.length ≤ maxText) :
    pop3Write nullFlag (some command) nargs (some fmt) args =
      send (command.content ++ space :: body) := by
  have shape : command.content ++ space :: fmt.content ++ crlf =
      (command.content ++ [space]) ++ (fmt.content ++ crlf) := by
    simp
  have noNul : 0 ∉ (command.content ++ [space]) ++ (fmt.content ++ crlf) := by
    simp [command.noNul, fmt.noNul, show (0 : Byte) ≠ space by decide, show 0 ∉ crlf by decide]
  simp only [pop3Write, pop3WriteFmt, given, nullFlag_end, Bool.false_eq_true, if_false]
  rw [shape, strWrite_expanded nullFlag_noEnd noNul (plain.append (by decide)) count positive expand
    (by
      rw [List.length_append, List.length_singleton]
      exact fits)]
  simp

/-- A command with a string as its argument. -/
theorem pop3WriteStr_argument {command str : CString} (plain : Plain command.content)
    (fits : command.length + str.length + 3 ≤ maxText) :
    pop3WriteStr nullFlag (some command) (some str) =
      send (command.content ++ space :: str.content ++ crlf) := by
  have expand : vformat ((lit "%s").content ++ crlf) [.str str] = some (str.content ++ crlf) := by
    rw [content_lit (by decide)]
    exact vformat_string str
  rw [pop3WriteStr, pop3Write_expanded plain (by decide) (by decide) (by decide) expand (by
    simp only [List.length_append, crlf, List.length_cons, List.length_nil]
    simp only [CString.length] at fits ⊢
    omega)]
  simp

/-! ## IMAP -/

/-- A command with a tag and without arguments. -/
theorem imap4WriteStr_command {tag : Token} {command : CString} (clean : 0 ∉ tag.buf)
    (fits : tag.len + command.length + 3 < maxLineLength) :
    imap4WriteStr nullFlag (some tag) (some command) none =
      send (tag.buf ++ space :: command.content ++ crlf) := by
  have line : imap4FmtLine nullFlag (some tag) (some command) none =
      tag.buf ++ space :: command.content ++ crlf := by
    simp [imap4FmtLine, nullFlag_end]
  have noNul : 0 ∉ tag.buf ++ space :: command.content ++ crlf := by
    simp [clean, command.noNul, show (0 : Byte) ≠ space by decide, show 0 ∉ crlf by decide]
  have room : (tag.buf ++ space :: command.content ++ crlf).length < maxLineLength := by
    simp only [List.length_append, List.length_cons, crlf, List.length_nil]
    simp only [Token.len, CString.length] at fits
    omega
  simp only [imap4WriteStr, imap4Write, imap4WriteFmt, strWrite, line, Option.isNone_some,
    Bool.false_and, Bool.false_eq_true, if_false, room, if_true]
  rw [strVwrite_fast nullFlag_noEnd, cstr_content noNul]

/-- A command with a tag and a format for its arguments. -/
theorem imap4Write_expanded {tag : Token} {command fmt : CString} {nargs : Nat}
    {args : List Arg} {body : List Byte} (clean : 0 ∉ tag.buf) (plainTag : Plain tag.buf)
    (plain : Plain command.content) (given : fmt.isEmpty = false)
    (room : tag.len + command.length + fmt.length + 4 < maxLineLength)
    (count : fmtArgs (fmt.content ++ crlf) = nargs) (positive : nargs ≠ 0)
    (expand : vformat (fmt.content ++ crlf) args = some body)
    (fits : tag.len + command.length + 2 + body.length ≤ maxText) :
    imap4Write nullFlag (some tag) (some command) nargs (some fmt) args =
      send (tag.buf ++ space :: command.content ++ space :: body) := by
  have line : imap4FmtLine nullFlag (some tag) (some command) (some fmt) =
      (tag.buf ++ space :: command.content ++ [space]) ++ (fmt.content ++ crlf) := by
    simp [imap4FmtLine, nullFlag_end, given]
  have noNul : 0 ∉ (tag.buf ++ space :: command.content ++ [space]) ++ (fmt.content ++ crlf) := by
    simp [clean, command.noNul, fmt.noNul, show (0 : Byte) ≠ space by decide,
      show 0 ∉ crlf by decide]
  have plainFront : Plain (tag.buf ++ space :: command.content ++ [space]) :=
    (plainTag.append ((show Plain [space] by decide).append plain)).append (by decide)
  have small : ((tag.buf ++ space :: command.content ++ [space]) ++
      (fmt.content ++ crlf)).length < maxLineLength := by
    simp only [List.length_append, List.length_cons, crlf, List.length_nil]
    simp only [Token.len, CString.length] at room
    omega
  simp only [imap4Write, imap4WriteFmt, line, Option.isNone_some, Bool.false_and,
    Bool.false_eq_true, if_false, small, if_true]
  rw [strWrite_expanded nullFlag_noEnd noNul plainFront count positive expand (by
      simp only [List.length_append, List.length_cons, List.length_nil]
      simp only [Token.len, CString.length] at fits
      omega)]
  simp

/-- A command with a tag and a string as its argument. -/
theorem imap4WriteStr_argument {tag : Token} {command str : CString} (clean : 0 ∉ tag.buf)
    (plainTag : Plain tag.buf) (plain : Plain command.content)
    (room : tag.len + command.length + 6 < maxLineLength)
    (fits : tag.len + command.length + str.length + 4 ≤ maxText) :
    imap4WriteStr nullFlag (some tag) (some command) (some str) =
      send (tag.buf ++ space :: command.content ++ space :: (str.content ++ crlf)) := by
  have format : (lit "%s").content = bytes "%s" := content_lit (by decide)
  have given : (lit "%s").length = 2 := by decide
  unfold imap4WriteStr
  exact imap4Write_expanded clean plainTag plain (by decide) (by rw [given]; exact room)
    (by rw [format]; decide) (by decide) (by rw [format]; exact vformat_string str) (by
      simp only [List.length_append, crlf, List.length_cons, List.length_nil]
      simp only [CString.length] at fits ⊢
      omega)

/-! ## ManageSieve -/

/-- A message is sent with a line end. -/
theorem managesieveWriteRaw_fits {message : CString} (fits : message.length ≤ maxText) :
    managesieveWriteRaw message =
      do if (← send (message.content ++ crlf)) < 0 then return -1 else return 0 := by
  have expand : vformat (lit "%s").content [.str message] = some message.content := by
    rw [content_lit (by decide)]
    change vformat [37, 115] [.str message] = _
    simp [vformat]
  have line : (0 : Flag).has writeStrNoCllf = false := by decide
  unfold managesieveWriteRaw strWrite
  rw [expand, strVwrite_text (by simp) (by rw [content_lit (by decide)]; decide) fits]
  simp [line]

end Perdition
