import Perdition.Spec.Phase
import Perdition.Verif.Contracts
import Perdition.Verif.Writers

/-!
# What is sent to a real server

`out_setup` and `quit` send nothing but lines of a known family, and no function that talks to the
real server reads from the client. The tag stays a tag of the program throughout.
-/
namespace Perdition

open Lib Program

/-! ## Tags of the program -/

/-- The characters of a tag of the program. -/
def alnum (b : Byte) : Bool := isDigit b || isLower b || isUpper b

theorem imap4TagNext_alnum (c : Byte) : alnum (imap4TagNext c).1 = true ∨ ¬ alnum c = true := by
  revert c
  exact byte_of_nat (by decide +kernel)

theorem imap4TagIncFrom_length (reversed : List Byte) :
    (imap4TagIncFrom reversed).length = reversed.length := by
  induction reversed with
  | nil => rfl
  | cons c before ih =>
    unfold imap4TagIncFrom
    dsimp only
    split <;> simp [ih]

theorem imap4TagIncFrom_alnum {reversed : List Byte} (given : ∀ b ∈ reversed, alnum b) :
    ∀ b ∈ imap4TagIncFrom reversed, alnum b := by
  induction reversed with
  | nil => exact given
  | cons c before ih =>
    have next : alnum (imap4TagNext c).1 :=
      (imap4TagNext_alnum c).resolve_right (by simp [given c])
    have rest : ∀ b ∈ before, alnum b := fun b member => given b (List.mem_cons_of_mem c member)
    unfold imap4TagIncFrom
    dsimp only
    split
    · exact List.forall_mem_cons.mpr ⟨next, rest⟩
    · exact List.forall_mem_cons.mpr ⟨next, ih rest⟩

/-- A tag of the program has six letters and digits. -/
theorem OurTag.shape {tag : Token} (ours : OurTag tag) :
    tag.buf.length = 6 ∧ ∀ b ∈ tag.buf, alnum b := by
  induction ours with
  | create => exact ⟨by decide, by decide +kernel⟩
  | inc before ih =>
    constructor
    · simp [imap4TagInc, imap4TagIncFrom_length, ih.1]
    · intro b member
      have same : b ∈ imap4TagIncFrom _ := List.mem_reverse.mp member
      exact imap4TagIncFrom_alnum (fun b member => ih.2 b (List.mem_reverse.mp member)) b same

theorem OurTag.flag {tag : Token} (ours : OurTag tag) : tag.flag = tokenNone := by
  induction ours with
  | create => rfl
  | inc before ih => exact ih

theorem OurTag.noNul {tag : Token} (ours : OurTag tag) : 0 ∉ tag.buf :=
  fun member => absurd (ours.shape.2 0 member) (by decide)

theorem OurTag.plain {tag : Token} (ours : OurTag tag) : Plain tag.buf :=
  fun member => absurd (ours.shape.2 percent member) (by decide)

theorem toLower_alnum (b : Byte) : alnum (toLower b) = alnum b := by
  revert b
  exact byte_of_nat (by decide +kernel)

/-- Bytes of one length with the same letters up to a NUL have the same letters, where one has none. -/
theorem letters_of_cstr {left right : List Byte} (length : left.length = right.length)
    (same : (cstr left).content.map toLower = (cstr right).content.map toLower)
    (clean : 0 ∉ left) : left.map toLower = right.map toLower := by
  rw [cstr_content clean] at same
  have whole : (cstr right).content = right := by
    refine (List.takeWhile_prefix _).eq_of_length ?_
    have counted := congrArg List.length same
    rw [List.length_map, List.length_map] at counted
    exact counted.symm.trans length
  rw [same, whole]

/-- Tokens, one of them without a NUL, compare equal where they have the same letters. -/
theorem tokenCmp_iff {a b : Token} (clean : 0 ∉ a.buf ∨ 0 ∉ b.buf) :
    tokenCmp a b = true ↔ (a.flag = b.flag ∨ a.flag = 0x03 ∨ b.flag = 0x03) ∧
      a.buf.map toLower = b.buf.map toLower := by
  have flags : ((a.flag = b.flag || a.flag = 0x03 || b.flag = 0x03 : Bool)) = true ↔
      a.flag = b.flag ∨ a.flag = 0x03 ∨ b.flag = 0x03 := by
    simp [or_assoc]
  rw [tokenCmp, Bool.and_eq_true, Bool.and_eq_true, flags, strncaseEq, Token.len, Token.len]
  constructor
  · rintro ⟨⟨length, flag⟩, same⟩
    have length := of_decide_eq_true length
    have same := of_decide_eq_true same
    rw [List.take_length, length, List.take_length] at same
    refine ⟨flag, ?_⟩
    rcases clean with clean | clean
    · exact letters_of_cstr length same clean
    · exact (letters_of_cstr length.symm same.symm clean).symm
  · rintro ⟨flag, same⟩
    have length := congrArg List.length same
    rw [List.length_map, List.length_map] at length
    have both : 0 ∉ a.buf ∧ 0 ∉ b.buf := by
      rcases clean with clean | clean
      · exact ⟨clean, noNul_of_letters same clean⟩
      · exact ⟨noNul_of_letters same.symm clean, clean⟩
    refine ⟨⟨decide_eq_true length, flag⟩, decide_eq_true ?_⟩
    rw [List.take_length, length, List.take_length, cstr_content both.1, cstr_content both.2, same]

/-- A token that compares equal to a tag has its letters, in either case. -/
theorem OurTag.letters {tag t : Token} (ours : OurTag tag) (same : tokenCmp tag t = true) :
    t.buf.map toLower = tag.buf.map toLower :=
  ((tokenCmp_iff (.inl ours.noNul)).mp same).2.symm

/-- So it has only letters and digits. -/
theorem OurTag.same_alnum {tag t : Token} (ours : OurTag tag) (same : tokenCmp tag t = true) :
    ∀ b ∈ t.buf, alnum b := by
  intro b member
  have lower : toLower b ∈ tag.buf.map toLower :=
    ours.letters same ▸ List.mem_map_of_mem member
  obtain ⟨a, given, equal⟩ := List.mem_map.mp lower
  rw [← toLower_alnum b, ← equal, toLower_alnum a]
  exact ours.shape.2 a given

/-- It has six of them. -/
theorem OurTag.same_length {tag t : Token} (ours : OurTag tag) (same : tokenCmp tag t = true) :
    t.buf.length = 6 := by
  have counted := congrArg List.length (ours.letters same)
  rw [List.length_map, List.length_map, ours.shape.1] at counted
  exact counted

/-! ## Contracts of an exchange -/

/-- The client is not read from, and the real server is sent only lines that meet a condition. -/
def sending (line : List Byte → Prop) : Contract DuoSig where
  allowed
    | (.client, .nextByte) => False
    | (.server, .write content) => line content
    | _ => True
  returns _ _ := True

section Exchanges

variable {α : Type} {line : List Byte → Prop} {result : α → Prop}

theorem with_server {dialogue : Dialogue α} (holds : dialogue.Obeys (speaking line) result) :
    (dialogue.with .server).Obeys (sending line) result :=
  obeys_interpret holds fun op allowed => ⟨by cases op <;> exact allowed, fun _ _ => trivial⟩

theorem with_client {dialogue : Dialogue α} (holds : dialogue.Obeys writing result) :
    (dialogue.with .client).Obeys (sending line) result :=
  obeys_interpret holds fun op allowed => ⟨by cases op <;> trivial, fun _ _ => trivial⟩

/-- Where anything may be sent every dialogue may be held. -/
theorem with_server_any (dialogue : Dialogue α) :
    (dialogue.with .server).Obeys (sending fun _ => True) fun _ => True :=
  with_server (obeys_within (obeys_any dialogue) (fun op _ => by cases op <;> trivial)
    fun _ _ => id)

theorem exchangeFault_obeys {why : Fault} :
    (Exchange.fault why : Exchange α).Obeys (sending line) result :=
  with_server (fault_obeys trivial)

/-- Where anything may be sent, what may be sent is no matter. -/
theorem sending_any {exchange : Exchange α} (holds : exchange.Obeys (sending line) result) :
    exchange.Obeys (sending fun _ => True) result :=
  obeys_within holds (fun op allowed => by
    obtain ⟨party, op⟩ := op
    cases party <;> cases op <;> trivial) fun _ _ => id

end Exchanges

/-- A line that is sent with one write. -/
theorem send_speaking {line : List Byte → Prop} {content : List Byte} (allowed : line content) :
    (send content).Obeys (speaking line) fun _ => True :=
  obeys_step allowed fun ok _ => by cases ok <;> trivial

/-! ## IMAP -/

section Imap4

variable {line : List Byte → Prop}

theorem imap4OutWriteQueue_writing (tag : Token) (q : Queue) :
    (imap4OutWriteQueue tag q).Obeys writing fun _ => True := by
  unfold imap4OutWriteQueue
  split
  · trivial
  · split
    · exact obeys_then (imap4WriteStr_writing _ _ _ _) fun _ =>
        obeys_ite (fun _ => trivial) fun _ => trivial
    · exact fault_obeys trivial

theorem imap4OutResponseRound_sending (relay : Bool) (tag : Option Token) (desired : Token)
    (capture : Option Capture) :
    (imap4OutResponseRound relay tag desired capture).Obeys (sending line) fun _ => True := by
  refine obeys_then (with_server (speaking_of_reading (readLineInto_reading _ _ _))) fun r => ?_
  split
  · trivial
  · split
    · trivial
    · refine obeys_ite (fun _ => obeys_ite (fun _ => ?_) fun _ => trivial) fun _ =>
        obeys_ite (fun _ => trivial) fun _ => trivial
      exact obeys_then (with_client (imap4OutWriteQueue_writing _ _)) fun _ =>
        obeys_ite (fun _ => trivial) fun _ => trivial
    · exact obeys_ite (fun _ => trivial) fun _ => trivial

theorem imap4OutResponse_sending (relay : Bool) (tag : Option Token) (desired : Token)
    (capture : Option Capture) :
    (imap4OutResponse relay tag desired capture).Obeys (sending line) fun _ => True :=
  obeys_loop_any fun _ => imap4OutResponseRound_sending _ _ _ _

theorem dropTag_sending (capture : Option Capture) :
    (Capture.dropTag capture).Obeys (sending line) fun _ => True := by
  unfold Capture.dropTag
  split
  · trivial
  · split
    · exact exchangeFault_obeys
    · trivial

/-- A command of the program with one of its tags is a line of the set-up. -/
theorem imap4Command_speaking {tag : Token} {command : String} (ours : OurTag tag)
    (listed : bytes command ∈ setupCommands .imap4) :
    (imap4WriteStr nullFlag (some tag) (some (lit command)) none).Obeys
      (speaking (SetupLine .imap4)) fun _ => True := by
  have content : (lit command).content = bytes command := by
    refine content_lit fun nul => ?_
    simp only [setupCommands, List.mem_cons, List.not_mem_nil, or_false] at listed
    rcases listed with same | same | same <;> rw [same] at nul <;> revert nul <;> decide
  have short : (lit command).length ≤ 10 := by
    rw [CString.length, content]
    simp only [setupCommands, List.mem_cons, List.not_mem_nil, or_false] at listed
    rcases listed with same | same | same <;> rw [same] <;> decide
  have fits : tag.len + (lit command).length + 3 < maxLineLength := by
    have six : tag.len = 6 := ours.shape.1
    simp only [maxLineLength]
    omega
  rw [imap4WriteStr_command ours.noNul fits]
  refine send_speaking ⟨tag.buf ++ [space], bytes command, ?_, listed, ?_⟩
  · exact ⟨tag, ours, rfl⟩
  · simp [content]

theorem imap4OutReadCapability_sending (relay : Bool) (ok : Token) {tag : Token}
    (capture : Option Capture) (str : CString) (ours : OurTag tag) :
    (imap4OutReadCapability relay ok tag capture str).Obeys (sending line)
      fun r => OurTag r.2.1 := by
  refine obeys_then (imap4OutResponse_sending _ _ _ _) fun untagged => ?_
  refine obeys_ite (fun _ => ours) fun _ => ?_
  refine obeys_then (imap4OutResponse_sending _ _ _ _) fun tagged => ?_
  exact obeys_ite (fun _ => ours) fun _ => ours.inc

theorem imap4OutGetCapability_sending (relay : Bool) (ok : Token) {tag : Token}
    (capture : Option Capture) (str : CString) (ours : OurTag tag) :
    (imap4OutGetCapability relay ok tag capture str).Obeys (sending (SetupLine .imap4))
      fun r => OurTag r.2.1 := by
  refine obeys_then (with_server (imap4Command_speaking ours (by decide))) fun written => ?_
  refine obeys_ite (fun _ => obeys_bind.mpr ?_) fun _ => ?_
  · exact obeys_then (dropTag_sending _) fun _ => ours
  · refine obeys_bind.mpr (obeys_mono (imap4OutReadCapability_sending _ _ _ _ ours)
      fun r kept => ?_)
    exact obeys_then (dropTag_sending _) fun _ => kept

theorem imap4OutStarttls_sending (opt : Options) {tag : Token} (compared : Int)
    (ours : OurTag tag) :
    (imap4OutStarttls opt tag compared).Obeys (sending (SetupLine .imap4))
      fun r => OurTag r.2 := by
  refine obeys_bind.mpr (obeys_mono (imap4OutGetCapability_sending _ _ _ _ ours)
    fun r ours => ?_)
  refine obeys_ite (fun _ => ours) fun _ => obeys_ite (fun _ => ?_) fun _ => ?_
  · exact obeys_ite (fun _ => ours) fun _ => ours
  · refine obeys_then (with_server (imap4Command_speaking ours (by decide))) fun written => ?_
    refine obeys_ite (fun _ => ours) fun _ => ?_
    refine obeys_then (imap4OutResponse_sending _ _ _ _) fun response => ?_
    exact obeys_ite (fun _ => ours) fun _ => ours.inc

theorem imap4OutSetup_sending (opt : Options) (platform : Platform) {tag : Token}
    (ours : OurTag tag) :
    (imap4OutSetup opt platform tag).Obeys (sending (SetupLine .imap4)) fun r => OurTag r.2 := by
  refine obeys_then (imap4OutResponse_sending _ _ _ _) fun response => ?_
  refine obeys_ite (fun _ => ours) fun _ => ?_
  split
  · exact exchangeFault_obeys
  · split
    · exact exchangeFault_obeys
    · exact ours
    · exact obeys_ite (fun _ => ours) fun _ => obeys_ite (fun _ => ours) fun _ =>
        imap4OutStarttls_sending opt _ ours

theorem imap4OutAuthenticate_sending (auth : Auth) {tag : Token} (capture : Option Capture)
    (ours : OurTag tag) :
    (imap4OutAuthenticate auth tag capture).Obeys (sending fun _ => True)
      fun r => OurTag r.tag := by
  refine obeys_bind.mpr (obeys_mono (sending_any (imap4OutGetCapability_sending _ _ _ _ ours))
    fun r ours => ?_)
  have ended {status : Int} {now : Option Capture} :
      (pure (status, now) >>= fun r' : Int × Option Capture => (do
        return ⟨r'.1, imap4TagInc r.2.1, ← Capture.dropTag r'.2⟩ : Exchange OutAuth)).Obeys
        (sending fun _ => True) fun r => OurTag r.tag :=
    obeys_bind.mpr (obeys_then (dropTag_sending _) fun _ => ours.inc)
  refine obeys_ite (fun _ => ended) fun _ => obeys_ite (fun _ => ended) fun _ => ?_
  split
  · refine obeys_then ?_ fun _ => obeys_then (dropTag_sending _) fun _ => ours.inc
    refine obeys_then (with_server_any _) fun _ => obeys_ite (fun _ => trivial) fun _ => ?_
    refine obeys_then (imap4OutResponse_sending _ _ _ _) fun _ => ?_
    refine obeys_then (with_server_any _) fun _ => obeys_ite (fun _ => trivial) fun _ => ?_
    refine obeys_then (imap4OutResponse_sending _ _ _ _) fun _ => ?_
    refine obeys_then (with_server_any _) fun _ => obeys_ite (fun _ => trivial) fun _ => ?_
    exact obeys_then (imap4OutResponse_sending _ _ _ _) fun _ => trivial
  · exact obeys_then exchangeFault_obeys fun _ => obeys_then (dropTag_sending _) fun _ => ours.inc

end Imap4

/-! ## POP3 and ManageSieve -/

section Pop3

variable {line : List Byte → Prop}

theorem pop3OutResponse_sending (desired : Token) (capture : Option Capture) :
    (pop3OutResponse desired capture).Obeys (sending line) fun _ => True := by
  refine obeys_then (with_server (speaking_of_reading (readLineInto_reading _ _ _))) fun r => ?_
  split
  · trivial
  · split <;> trivial

theorem pop3OutCapabilities_sending :
    pop3OutCapabilities.Obeys (sending line) fun _ => True := by
  refine obeys_loop_any fun found => ?_
  refine obeys_then (with_server (speaking_of_reading (readLine_reading _ _ _))) fun r => ?_
  split
  · trivial
  · split
    · trivial
    · exact obeys_ite (fun _ => trivial) fun _ => trivial

theorem pop3Command_speaking {command : String} (listed : bytes command ∈ setupCommands .pop3) :
    (pop3WriteStr nullFlag (some (lit command)) none).Obeys (speaking (SetupLine .pop3))
      fun _ => True := by
  have content : (lit command).content = bytes command := by
    refine content_lit fun nul => ?_
    simp only [setupCommands, List.mem_cons, List.not_mem_nil, or_false] at listed
    rcases listed with same | same | same <;> rw [same] at nul <;> revert nul <;> decide
  rw [pop3WriteStr_command, content]
  exact send_speaking ⟨[], bytes command, by simp [CommandFront], listed, rfl⟩

theorem pop3OutStls_sending : pop3OutStls.Obeys (sending (SetupLine .pop3)) fun _ => True := by
  refine obeys_then (with_server (pop3Command_speaking (by decide))) fun _ => ?_
  refine obeys_ite (fun _ => trivial) fun _ => ?_
  refine obeys_then (pop3OutResponse_sending _ _) fun _ => obeys_ite (fun _ => trivial) fun _ => ?_
  refine obeys_then pop3OutCapabilities_sending fun _ => ?_
  refine obeys_ite (fun _ => trivial) fun _ => obeys_ite (fun _ => trivial) fun _ => ?_
  refine obeys_then (with_server (pop3Command_speaking (by decide))) fun _ => ?_
  refine obeys_ite (fun _ => trivial) fun _ => ?_
  exact obeys_then (pop3OutResponse_sending _ _) fun _ => trivial

theorem pop3OutSetup_sending (opt : Options) (platform : Platform) :
    (pop3OutSetup opt platform).Obeys (sending (SetupLine .pop3)) fun _ => True := by
  refine obeys_then (pop3OutResponse_sending _ _) fun _ => obeys_ite (fun _ => trivial) fun _ => ?_
  split
  · exact exchangeFault_obeys
  · split
    · trivial
    · exact obeys_ite (fun _ => trivial) fun _ => obeys_ite (fun _ => trivial) fun _ =>
        pop3OutStls_sending

theorem pop3OutAuthenticate_sending (auth : Auth) (tag : Token) (capture : Option Capture) :
    (pop3OutAuthenticate auth tag capture).Obeys (sending fun _ => True)
      fun r => r.tag = tag := by
  refine obeys_then (with_server_any _) fun _ => obeys_ite (fun _ => rfl) fun _ => ?_
  refine obeys_then (pop3OutResponse_sending _ _) fun _ => obeys_ite (fun _ => rfl) fun _ => ?_
  refine obeys_ite (fun _ => rfl) fun _ => ?_
  refine obeys_then (with_server_any _) fun _ => obeys_ite (fun _ => rfl) fun _ => ?_
  exact obeys_then (pop3OutResponse_sending _ _) fun _ => rfl

theorem managesieveOutString_sending (platform : Platform) (state : CapabilityState)
    (q : Queue) :
    (managesieveOutString platform state q).Obeys (sending line) fun _ => True := by
  refine obeys_then (with_server (speaking_of_reading (acapTokenWrapper_reading _ _)))
    fun w => obeys_ite (fun _ => trivial) fun _ => ?_
  split
  · exact exchangeFault_obeys
  · exact obeys_ite (fun _ => trivial) fun _ => trivial

theorem managesieveOutCapability_sending (platform : Platform) :
    (managesieveOutCapability platform).Obeys (sending line) fun _ => True := by
  refine obeys_loop_any fun state => ?_
  split
  · exact managesieveOutString_sending _ _ _
  · refine obeys_then (with_server (speaking_of_reading (readLine_reading _ _ _))) fun r => ?_
    split
    · trivial
    · exact managesieveOutString_sending _ _ _

theorem managesieveCommand_speaking {flag : Flag} {command : String}
    (listed : bytes command ∈ setupCommands .managesieve) :
    (managesieveWrite flag (lit command) none none).Obeys (speaking (SetupLine .managesieve))
      fun _ => True := by
  have content : (lit command).content = bytes command := by
    refine content_lit fun nul => ?_
    simp only [setupCommands, List.mem_cons, List.not_mem_nil, or_false] at listed
    rcases listed with same | same <;> rw [same] at nul <;> revert nul <;> decide
  have fits : (lit command).length ≤ maxText := by
    rw [CString.length, content]
    simp only [setupCommands, List.mem_cons, List.not_mem_nil, or_false] at listed
    rcases listed with same | same <;> rw [same] <;> decide
  have sent : (send ((lit command).content ++ crlf)).Obeys (speaking (SetupLine .managesieve))
      fun _ => True :=
    send_speaking ⟨[], bytes command, by simp [CommandFront], listed, by simp [content]⟩
  have raw : (managesieveWriteRaw (lit command)).Obeys (speaking (SetupLine .managesieve))
      fun _ => True := by
    rw [managesieveWriteRaw_fits fits]
    exact obeys_then sent fun _ => obeys_ite (fun _ => trivial) fun _ => trivial
  refine obeys_then ?_ fun _ => obeys_ite (fun _ => trivial) fun _ => trivial
  exact obeys_then raw fun _ => obeys_ite (fun _ => trivial) fun _ => trivial

theorem managesieveOutSetup_sending (opt : Options) (platform : Platform) :
    (managesieveOutSetup opt platform).Obeys (sending (SetupLine .managesieve))
      fun _ => True := by
  refine obeys_then (managesieveOutCapability_sending _) fun status => ?_
  refine obeys_ite (fun _ => trivial) fun _ => obeys_ite (fun _ => trivial) fun _ => ?_
  refine obeys_ite (fun _ => obeys_ite (fun _ => trivial) fun _ => trivial) fun _ => ?_
  refine obeys_then (with_server (managesieveCommand_speaking (by decide))) fun _ => ?_
  refine obeys_ite (fun _ => trivial) fun _ => ?_
  exact obeys_then (pop3OutResponse_sending _ _) fun _ => obeys_ite (fun _ => trivial) fun _ =>
    trivial

theorem managesieveOutLogin_sending (platform : Platform) (auth : Auth) (saslMech : Int)
    (tag : Token) (capture : Option Capture) :
    (managesieveOutLogin platform auth saslMech tag capture).Obeys (sending fun _ => True)
      fun r => r.tag = tag := by
  refine obeys_ite (fun _ => rfl) fun _ => ?_
  unfold saslPlain
  split
  · exact exchangeFault_obeys
  · refine obeys_then (with_server_any _) fun _ => obeys_ite (fun _ => rfl) fun _ => ?_
    exact obeys_then (pop3OutResponse_sending _ _) fun _ => rfl

theorem managesieveOutAuthenticate_sending (platform : Platform) (tlsState : Flag) (auth : Auth)
    (saslMech : Int) (tag : Token) (capture : Option Capture) :
    (managesieveOutAuthenticate platform tlsState auth saslMech tag capture).Obeys
      (sending fun _ => True) fun r => r.tag = tag := by
  refine obeys_ite (fun _ => ?_) fun _ => managesieveOutLogin_sending _ _ _ _ _
  refine obeys_then (managesieveOutCapability_sending _) fun _ => ?_
  exact obeys_ite (fun _ => rfl) fun _ => managesieveOutLogin_sending _ _ _ _ _

end Pop3

/-! ## Every protocol -/

namespace Protocol

variable (protocol : Protocol)

/-- `out_setup` sends lines of the set-up only. -/
theorem outSetup_sending (opt : Options) (platform : Platform) {tag : Token}
    (ours : OurTag tag) :
    (protocol.outSetup opt platform tag).Obeys (sending (SetupLine protocol))
      fun r => OurTag r.2 := by
  cases protocol with
  | pop3 => exact obeys_then (pop3OutSetup_sending opt platform) fun _ => ours
  | imap4 => exact imap4OutSetup_sending opt platform ours
  | managesieve => exact obeys_then (managesieveOutSetup_sending opt platform) fun _ => ours

theorem quitString_speaking {tag : Token} (ours : OurTag tag) :
    (protocol.writeStr nullFlag (some tag) (some protocol.quitString) none).Obeys
      (speaking (SetupLine protocol)) fun _ => True := by
  cases protocol with
  | pop3 => exact pop3Command_speaking (by decide)
  | imap4 => exact imap4Command_speaking ours (by decide)
  | managesieve => exact managesieveCommand_speaking (by decide)

/-- `quit` sends a line of the set-up only. -/
theorem quit_sending {tag : Token} (ours : OurTag tag) :
    (protocol.quit tag).Obeys (sending (SetupLine protocol)) OurTag := by
  have response : (protocol.outResponse tag ⟨(protocol.type .ok).content, tokenDontCare⟩).Obeys
      (sending (SetupLine protocol)) fun _ => True := by
    cases protocol with
    | pop3 => exact pop3OutResponse_sending _ _
    | imap4 => exact imap4OutResponse_sending _ _ _ _
    | managesieve => exact pop3OutResponse_sending _ _
  refine obeys_then (with_server (quitString_speaking protocol ours)) fun _ => ?_
  exact obeys_ite (fun _ => ours) fun _ => obeys_then response fun _ => ours.inc

/-- `out_authenticate` does not read from the client. -/
theorem outAuthenticate_sending (platform : Platform) (tlsState : Flag) (auth : Auth)
    (saslMech : Int) {tag : Token} (capture : Option Capture) (ours : OurTag tag) :
    (protocol.outAuthenticate platform tlsState auth saslMech tag capture).Obeys
      (sending fun _ => True) fun r => OurTag r.tag := by
  cases protocol with
  | pop3 =>
    exact obeys_mono (pop3OutAuthenticate_sending auth tag capture) fun r same => same ▸ ours
  | imap4 => exact imap4OutAuthenticate_sending auth capture ours
  | managesieve =>
    exact obeys_mono (managesieveOutAuthenticate_sending _ _ _ _ _ _) fun r same => same ▸ ours

end Protocol

end Perdition
