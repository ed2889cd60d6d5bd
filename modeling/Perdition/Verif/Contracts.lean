import Perdition.Session

/-!
# What the parts of a session do to their connections

Which operations the readers, the writers and the functions of a protocol perform, whatever the
peer does: readers write nothing, writers read nothing, and the functions that talk to the real
server never read from the client. The lines that the set-up of a server can write are known in
advance, and no credentials are in them.
-/
namespace Perdition

open Lib Program

/-! ## Contracts of one connection -/

/-- Only lines that meet a condition are written. -/
def speaking (line : List Byte → Prop) : Contract IoSig where
  allowed
    | .write content => line content
    | _ => True
  returns _ _ := True

/-- Nothing is read. -/
def writing : Contract IoSig where
  allowed
    | .nextByte => False
    | _ => True
  returns _ _ := True

/-- Nothing is written. -/
abbrev reading : Contract IoSig := speaking fun _ => False

/-- Where less may be written, less is written. -/
theorem speaking_mono {α : Type} {line line' : List Byte → Prop}
    {dialogue : Dialogue α} {result : α → Prop}
    (holds : dialogue.Obeys (speaking line) result) (weaker : ∀ c, line c → line' c) :
    dialogue.Obeys (speaking line') result :=
  obeys_within holds (fun op allowed => by
    cases op with
    | write content => exact weaker content allowed
    | _ => trivial) fun _ _ => id

/-- A reader may be used where anything is written. -/
theorem speaking_of_reading {α : Type} {line : List Byte → Prop} {dialogue : Dialogue α}
    {result : α → Prop} (holds : dialogue.Obeys reading result) :
    dialogue.Obeys (speaking line) result :=
  speaking_mono holds fun _ => False.elim

/-- Using memory outside an object is neither reading nor writing. -/
theorem fault_obeys {α : Type} {why : Fault} {contract : Contract IoSig} {result : α → Prop}
    (allowed : contract.allowed (.fault why)) :
    (fault why : Dialogue α).Obeys contract result :=
  ⟨allowed, fun never => nomatch never⟩

/-! ## Readers -/

/-- The bytes of the token after a step. -/
def ReadStep.buffer : ReadStep → List Byte
  | .more state => state.buffer
  | .stop state _ => state.buffer

/-- The bytes of a token under construction are among those taken. -/
theorem tokenStep_buffer (doLiteral : Bool) (flag : Flag) (m : Nat) (state : ReadState)
    (c : Byte) :
    (tokenStep doLiteral flag m state c).buffer.Sublist (state.buffer ++ [c]) := by
  have same : state.buffer.Sublist (state.buffer ++ [c]) := List.sublist_append_left _ _
  unfold tokenStep
  dsimp only
  split_ifs <;> first | exact same | exact List.Sublist.refl _

/-- `token_read` takes bytes and does nothing else. -/
theorem tokenRead_obeys {contract : Contract IoSig} (taken : contract.allowed .nextByte)
    (capture : Option Nat) (flag : Flag) (m : Nat) :
    (tokenRead capture flag m).Obeys contract fun _ => True := by
  refine obeys_loop_any fun state => obeys_ite (fun _ => trivial) fun _ => ?_
  refine obeys_step taken fun c _ => ?_
  split
  · trivial
  · split <;> trivial

/-- `read_line` takes bytes and does nothing else. -/
theorem readLine_obeys {contract : Contract IoSig} (taken : contract.allowed .nextByte)
    (capture : Option Nat) (flag : Flag) (m : Nat) :
    (readLine capture flag m).Obeys contract fun _ => True := by
  refine obeys_loop_any fun _ => ?_
  refine obeys_then (tokenRead_obeys taken _ _ _) fun t => ?_
  split
  · trivial
  · exact obeys_ite (fun _ => trivial) fun _ => trivial

theorem tokenRead_reading (capture : Option Nat) (flag : Flag) (m : Nat) :
    (tokenRead capture flag m).Obeys reading fun _ => True :=
  tokenRead_obeys trivial capture flag m

theorem readLine_reading (capture : Option Nat) (flag : Flag) (m : Nat) :
    (readLine capture flag m).Obeys reading fun _ => True :=
  readLine_obeys trivial capture flag m

theorem readLineInto_reading (capture : Option Capture) (flag : Flag) (m : Nat) :
    (readLineInto capture flag m).Obeys reading fun _ => True := by
  unfold readLineInto
  split
  · refine obeys_then (readLine_reading _ _ _) fun line => ?_
    split <;> trivial
  · refine obeys_then (readLine_reading _ _ _) fun line => ?_
    split
    · trivial
    · exact obeys_ite (fun _ => trivial) fun _ => trivial

theorem acapTokenWrapper_reading (platform : Platform) (q : Queue) :
    (acapTokenWrapper platform q).Obeys reading fun _ => True := by
  have literal (t : Token) (len : Nat) (type : AcapType) :
      (acapTokenWrapperLiteral t len type).Obeys reading fun _ => True := by
    refine obeys_ite (fun _ => trivial) fun _ => obeys_ite (fun _ => trivial) fun _ => ?_
    refine obeys_then (tokenRead_reading _ _ _) fun t => ?_
    split
    · trivial
    · split
      · exact fault_obeys trivial
      · refine obeys_then (readLine_reading _ _ _) fun line => ?_
        split
        · trivial
        · split
          · trivial
          · exact obeys_ite (fun _ => trivial) fun _ => trivial
  unfold acapTokenWrapper
  split
  · trivial
  · split <;> first | trivial | exact literal _ _ _

/-! ## Writers -/

/-- `str_vwrite` writes bytes, of the buffer too, and does nothing else unless it leaves the
buffer. -/
theorem strVwrite_obeys {contract : Contract IoSig}
    (written : ∀ content, contract.allowed (.write content))
    (stale : ∀ count, contract.allowed (.stale count))
    (beyond : contract.allowed (.fault .strVwrite)) (flag : Flag) (nargs : Nat) (fmt : CString)
    (text : Option (List Byte)) :
    (strVwrite flag nargs fmt text).Obeys contract fun _ => True := by
  unfold strVwrite
  split
  · trivial
  · refine obeys_ite (fun _ => fault_obeys beyond) fun _ => ?_
    refine obeys_ite (fun _ => obeys_step (stale _) fun old _ => ?_) fun _ => ?_
    all_goals
      refine obeys_step (written _) fun ok _ => ?_
      cases ok <;> trivial

theorem strVwrite_writing (flag : Flag) (nargs : Nat) (fmt : CString)
    (text : Option (List Byte)) :
    (strVwrite flag nargs fmt text).Obeys writing fun _ => True :=
  strVwrite_obeys (fun _ => trivial) (fun _ => trivial) trivial flag nargs fmt text

theorem imap4Write_writing (flag : Flag) (tag : Option Token) (command : Option CString)
    (nargs : Nat) (fmt : Option CString) (args : List Arg) :
    (imap4Write flag tag command nargs fmt args).Obeys writing fun _ => True := by
  unfold imap4Write
  split
  · exact fault_obeys trivial
  · exact fault_obeys trivial
  · exact strVwrite_writing _ _ _ _

theorem imap4WriteStr_writing (flag : Flag) (tag : Option Token) (command str : Option CString) :
    (imap4WriteStr flag tag command str).Obeys writing fun _ => True := by
  unfold imap4WriteStr
  split <;> exact imap4Write_writing _ _ _ _ _ _

theorem pop3Write_writing (flag : Flag) (command : Option CString) (nargs : Nat)
    (fmt : Option CString) (args : List Arg) :
    (pop3Write flag command nargs fmt args).Obeys writing fun _ => True := by
  unfold pop3Write
  split
  · exact fault_obeys trivial
  · exact strVwrite_writing _ _ _ _

theorem pop3WriteStr_writing (flag : Flag) (command str : Option CString) :
    (pop3WriteStr flag command str).Obeys writing fun _ => True := by
  unfold pop3WriteStr
  split <;> exact pop3Write_writing _ _ _ _ _

theorem managesieveWriteRaw_writing (message : CString) :
    (managesieveWriteRaw message).Obeys writing fun _ => True :=
  obeys_then (strVwrite_writing _ _ _ _) fun _ => obeys_ite (fun _ => trivial) fun _ => trivial

theorem managesieveWriteList_writing (strings : List (Option CString)) :
    (managesieveWriteList strings).Obeys writing fun _ => True := by
  unfold managesieveWriteList
  split
  · trivial
  · exact obeys_then (managesieveWriteRaw_writing _) fun _ =>
      obeys_ite (fun _ => trivial) fun _ => trivial

theorem managesieveWriteRc_writing (message cmd : Option CString) (strings : List CString) :
    (managesieveWriteRc message cmd strings).Obeys writing fun _ => True := by
  induction strings generalizing cmd with
  | nil => trivial
  | cons str rest ih =>
    exact obeys_then (managesieveWriteList_writing _) fun _ =>
      obeys_ite (fun _ => trivial) fun _ => ih none

theorem managesieveWrite_writing (flag : Flag) (command : CString)
    (rc : Option ManagesieveResponseCode) (message : Option CString) :
    (managesieveWrite flag command rc message).Obeys writing fun _ => True := by
  unfold managesieveWrite
  cases rc
  on_goal 1 => refine obeys_then (managesieveWriteList_writing _) fun status => ?_
  on_goal 2 => refine obeys_then (managesieveWriteRc_writing _ _ _) fun status => ?_
  all_goals
    refine obeys_ite (fun _ => trivial) fun _ => ?_
    split
    · trivial
    · exact obeys_then (managesieveWriteRaw_writing _) fun _ =>
        obeys_ite (fun _ => trivial) fun _ => trivial

theorem managesieveWriteStr_writing (flag : Flag) (command str : Option CString) :
    (managesieveWriteStr flag command str).Obeys writing fun _ => True := by
  unfold managesieveWriteStr
  split
  · trivial
  · exact strVwrite_writing _ _ _ _
  · exact managesieveWrite_writing _ _ _ _

/-- An answer to the client reads nothing. -/
theorem Protocol.writeStr_writing (protocol : Protocol) (flag : Flag) (tag : Option Token)
    (command str : Option CString) :
    (protocol.writeStr flag tag command str).Obeys writing fun _ => True := by
  cases protocol with
  | pop3 => exact pop3WriteStr_writing _ _ _
  | imap4 => exact imap4WriteStr_writing _ _ _ _
  | managesieve => exact managesieveWriteStr_writing _ _ _

/-- The greeting reads nothing. -/
theorem Protocol.greeting_writing (protocol : Protocol) (opt : Options) (platform : Platform) :
    (protocol.greeting opt platform).Obeys writing fun _ => True := by
  cases protocol <;> unfold Protocol.greeting <;> dsimp only
  case pop3 =>
    split
    · trivial
    · exact pop3WriteStr_writing _ _ _
  case imap4 =>
    split
    · exact fault_obeys trivial
    · trivial
    · exact imap4WriteStr_writing _ _ _ _
  case managesieve =>
    split
    · trivial
    · split
      · exact fault_obeys trivial
      · exact managesieveWriteRaw_writing _

end Perdition
