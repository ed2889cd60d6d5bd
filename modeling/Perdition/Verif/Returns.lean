import Perdition.Verif.Contracts

/-!
# What the client side returns

Whatever the client sends, `in_get_auth` returns one of its documented statuses, asks for TLS only
where it is offered, returns credentials with 0 and only then, and returns only tags it has verified.
-/
namespace Perdition

open Lib Program

/-- What `main` relies on in the result of `in_get_auth`. -/
structure InAuth.Valid (tlsFlags : Flag) (r : InAuth) : Prop where
  /-- The status is a documented one. -/
  range : r.status < 0 ∨ r.status = 0 ∨ r.status = 1 ∨ r.status = 2
  /-- TLS is started only where it is offered. -/
  listen : r.status = 2 → tlsFlags.has sslModeTlsListen
  /-- Credentials come with the status 0 and only with it. -/
  auth : r.auth.isSome ↔ r.status = 0
  /-- A tag has been verified. -/
  tag : ∀ t, r.tag = some t → imap4InVerifyTagStr t

/-- An end without credentials is as `main` expects. -/
theorem InAuth.plain_valid {tlsFlags : Flag} {status : Int}
    (range : status < 0 ∨ status = 1 ∨ status = 2)
    (listen : status = 2 → tlsFlags.has sslModeTlsListen) :
    (InAuth.plain status).Valid tlsFlags where
  range := by simp only [InAuth.plain]; omega
  listen := listen
  auth := by
    simp only [InAuth.plain, Option.isSome_none, Bool.false_eq_true, false_iff]
    omega
  tag := fun t given => by simp [InAuth.plain] at given

/-- An error is as `main` expects. -/
theorem InAuth.error_valid {tlsFlags : Flag} : (InAuth.plain (-1)).Valid tlsFlags :=
  InAuth.plain_valid (by omega) (by omega)

/-- A client that quits is as `main` expects. -/
theorem InAuth.quit_valid {tlsFlags : Flag} : (InAuth.plain 1).Valid tlsFlags :=
  InAuth.plain_valid (by omega) (by omega)

/-- Credentials are as `main` expects. -/
theorem InAuth.login_valid {tlsFlags : Flag} {auth : Auth} {tag : Option Token}
    (verified : ∀ t, tag = some t → imap4InVerifyTagStr t) :
    InAuth.Valid tlsFlags ⟨0, some auth, tag⟩ where
  range := by simp
  listen := by simp
  auth := by simp
  tag := verified

/-- A round of a command loop goes on, or returns a valid result. -/
def RoundValid {β : Type} (tlsFlags : Flag) : β ⊕ InAuth → Prop
  | .inl _ => True
  | .inr r => r.Valid tlsFlags

/-! ## IMAP -/

section Imap4

variable {tlsFlags : Flag}

theorem leave_error_valid : (leave (-1)).Obeys Contract.any (RoundValid tlsFlags) :=
  InAuth.error_valid

theorem imap4InBad_valid (tag : Token) (reason : CString) :
    (imap4InBad tag reason).Obeys Contract.any (RoundValid tlsFlags) :=
  obeys_bind_any fun _ => obeys_ite (fun _ => leave_error_valid) fun _ => trivial

theorem imap4InAnswer_valid (command : Dialogue Int) :
    (imap4InAnswer command).Obeys Contract.any (RoundValid tlsFlags) :=
  obeys_bind_any fun _ => obeys_ite (fun _ => leave_error_valid) fun _ => trivial

theorem imap4InCheckNoArg_valid {tag : Token} {q : Queue} {command : CString} {rest : Round}
    (holds : rest.Obeys Contract.any (RoundValid tlsFlags)) :
    (imap4InCheckNoArg tag q command rest).Obeys Contract.any (RoundValid tlsFlags) :=
  obeys_ite (fun _ => imap4InBad_valid _ _) fun _ => holds

theorem imap4InLoginPasswd_valid {platform : Platform} {tag : Token} {q : Queue}
    {status : Imap4Type} {name : CString} (verified : imap4InVerifyTagStr tag) :
    (imap4InLoginPasswd platform tag q status name).Obeys Contract.any (RoundValid tlsFlags) := by
  unfold imap4InLoginPasswd
  split
  · refine obeys_bind_any fun r => ?_
    split
    · exact imap4InBad_valid _ _
    · refine obeys_ite (fun _ => imap4InBad_valid _ _) fun _ => ?_
      split
      · exact fault_obeys trivial
      · refine InAuth.login_valid fun t same => ?_
        cases same
        exact verified
  · exact imap4InBad_valid _ _

theorem imap4InLoginName_valid {platform : Platform} {tag : Token} {q : Queue}
    {status : Imap4Type} {t : Token} (verified : imap4InVerifyTagStr tag) :
    (imap4InLoginName platform tag q status t).Obeys Contract.any (RoundValid tlsFlags) := by
  unfold imap4InLoginName
  refine obeys_ite (fun _ => imap4InBad_valid _ _) fun _ => ?_
  split
  · exact fault_obeys trivial
  · exact imap4InLoginPasswd_valid verified

theorem imap4InLogin_valid {platform : Platform} {tag : Token} {q : Queue}
    (verified : imap4InVerifyTagStr tag) :
    (imap4InLogin platform tag q).Obeys Contract.any (RoundValid tlsFlags) := by
  unfold imap4InLogin
  refine obeys_ite (fun _ => imap4InBad_valid _ _) fun _ => ?_
  split
  · exact leave_error_valid
  · refine obeys_bind_any fun r => ?_
    split
    · exact imap4InBad_valid _ _
    · exact imap4InLoginName_valid verified
    · refine obeys_bind_any fun line => ?_
      split
      · exact leave_error_valid
      · split
        · exact imap4InLoginName_valid verified
        · exact imap4InBad_valid _ _

theorem imap4InStarttls_valid {opt : Options} {tag : Token} :
    (imap4InStarttls opt tag).Obeys Contract.any (RoundValid opt.sslMode) := by
  unfold imap4InStarttls
  refine obeys_ite (fun _ => imap4InBad_valid _ _) fun offered => ?_
  refine obeys_bind_any fun type => obeys_ite (fun _ => ?_) fun _ => imap4InBad_valid _ _
  refine obeys_bind_any fun _ => obeys_ite (fun _ => leave_error_valid) fun _ => ?_
  exact InAuth.plain_valid (by omega) fun _ => by simpa using offered

theorem imap4InCommand_valid {opt : Options} {platform : Platform} {tlsState : Flag}
    {tag t : Token} {q : Queue} (verified : imap4InVerifyTagStr tag) :
    (imap4InCommand opt platform tlsFlags tlsState tag t q).Obeys Contract.any
      (RoundValid opt.sslMode) := by
  unfold imap4InCommand
  refine obeys_ite (fun _ => imap4InBad_valid _ _) fun _ => ?_
  refine obeys_ite (fun _ => imap4InCheckNoArg_valid (imap4InAnswer_valid _)) fun _ => ?_
  refine obeys_ite (fun _ => imap4InCheckNoArg_valid imap4InStarttls_valid) fun _ => ?_
  refine obeys_ite (fun _ => imap4InCheckNoArg_valid (imap4InAnswer_valid _)) fun _ => ?_
  refine obeys_ite (fun _ => obeys_ite (fun _ => imap4InBad_valid _ _) fun _ =>
    imap4InAnswer_valid _) fun _ => ?_
  refine obeys_ite (fun _ => imap4InCheckNoArg_valid ?_) fun _ => ?_
  · exact obeys_bind_any fun _ => obeys_ite (fun _ => leave_error_valid) fun _ =>
      InAuth.quit_valid
  · exact obeys_ite (fun _ => imap4InLogin_valid verified) fun _ => imap4InBad_valid _ _

theorem imap4InRound_valid (opt : Options) (platform : Platform) (tlsState : Flag) :
    (imap4InRound opt platform opt.sslMode tlsState).Obeys Contract.any
      (RoundValid opt.sslMode) := by
  refine obeys_bind_any fun line => ?_
  split
  · exact leave_error_valid
  · split
    · exact leave_error_valid
    · refine obeys_ite (fun _ => imap4InBad_valid _ _) fun verified => ?_
      refine obeys_ite (fun _ => imap4InBad_valid _ _) fun _ => ?_
      split
      · exact leave_error_valid
      · exact imap4InCommand_valid (by simpa using verified)

/-- `imap4_in_get_auth` returns what `main` expects. -/
theorem imap4InGetAuth_valid (opt : Options) (platform : Platform) (tlsState : Flag) :
    (imap4InGetAuth opt platform opt.sslMode tlsState).Obeys Contract.any
      (InAuth.Valid opt.sslMode) :=
  obeys_loop (fun _ => True) trivial fun _ _ =>
    obeys_mono (imap4InRound_valid opt platform tlsState) fun r valid => by
      cases r <;> exact valid

end Imap4

/-! ## POP3 -/

section Pop3

variable {tlsFlags : Flag}

theorem pop3InErrIf_valid {condition : Bool} {reason : CString} {name : Option CString}
    {rest : Pop3Round} (holds : rest.Obeys Contract.any (RoundValid tlsFlags)) :
    (pop3InErrIf condition reason name rest).Obeys Contract.any (RoundValid tlsFlags) :=
  obeys_ite (fun _ => obeys_bind_any fun _ => obeys_ite (fun _ => holds) fun _ => trivial)
    fun _ => holds

theorem pop3InInvalidCmd_valid {opt : Options} {message : CString} {name : Option CString} :
    (pop3InInvalidCmd opt message name).Obeys Contract.any (RoundValid tlsFlags) := by
  unfold pop3InInvalidCmd
  dsimp only
  refine obeys_ite (fun _ => ?_) fun _ => ?_ <;>
    exact obeys_bind_any fun _ => obeys_bind_any fun _ =>
      obeys_ite (fun _ => InAuth.error_valid) fun _ => trivial

theorem pop3InLoginCmd_valid {opt : Options} {t : Token} {q : Queue} {name : Option CString} :
    (pop3InLoginCmd opt t q name).Obeys Contract.any (RoundValid tlsFlags) := by
  unfold pop3InLoginCmd
  refine obeys_ite (fun _ => ?user) fun _ => obeys_ite (fun _ => ?pass) fun _ =>
    obeys_ite (fun _ => ?quit) fun _ => pop3InInvalidCmd_valid
  case user =>
    refine pop3InErrIf_valid ?_
    split
    · exact InAuth.error_valid
    · refine pop3InErrIf_valid ?_
      split
      · exact fault_obeys trivial
      · exact obeys_bind_any fun _ => trivial
  case pass =>
    refine pop3InErrIf_valid (pop3InErrIf_valid ?_)
    split
    · exact fault_obeys trivial
    · exact InAuth.login_valid fun t same => by simp at same
  case quit =>
    exact pop3InErrIf_valid (obeys_bind_any fun _ =>
      obeys_ite (fun _ => InAuth.error_valid) fun _ => InAuth.quit_valid)

theorem pop3InStls_valid {opt : Options} {t : Token} {q : Queue} {name : Option CString}
    (offered : tlsFlags.has sslModeTlsListen) :
    (pop3InStls opt t q name).Obeys Contract.any (RoundValid tlsFlags) :=
  pop3InErrIf_valid (obeys_bind_any fun _ => obeys_ite
    (fun _ => obeys_bind_any fun _ => InAuth.plain_valid (by omega) fun _ => offered)
    fun _ => pop3InErrIf_valid pop3InLoginCmd_valid)

theorem pop3InRound_valid (opt : Options) (capability : CString) (name : Option CString) :
    (pop3InRound opt capability name).Obeys Contract.any (RoundValid opt.sslMode) := by
  refine obeys_bind_any fun line => ?_
  split
  · exact InAuth.error_valid
  · split
    · exact InAuth.error_valid
    · refine pop3InErrIf_valid (obeys_ite (fun _ => pop3InInvalidCmd_valid) fun _ => ?_)
      refine obeys_ite (fun _ => pop3InErrIf_valid (obeys_bind_any fun _ => trivial)) fun _ => ?_
      refine obeys_ite (fun stls => pop3InStls_valid ?_) fun _ => pop3InLoginCmd_valid
      simp only [Bool.and_eq_true] at stls
      exact stls.1

/-- `pop3_in_get_auth` returns what `main` expects. -/
theorem pop3InGetAuth_valid (opt : Options) (tlsState : Flag) :
    (pop3InGetAuth opt opt.sslMode tlsState).Obeys Contract.any (InAuth.Valid opt.sslMode) := by
  unfold pop3InGetAuth
  split
  · exact fault_obeys trivial
  · refine obeys_loop (fun _ => True) trivial fun _ _ => ?_
    exact obeys_mono (pop3InRound_valid opt _ _) fun r valid => by cases r <;> exact valid

end Pop3

/-! ## ManageSieve -/

section ManageSieve

/-- A command of ManageSieve comes with credentials exactly when its status is 1, and its status
asks for TLS only where it is offered. -/
structure ManagesieveInAuthStatus.Valid (tlsFlags : Flag) (as : ManagesieveInAuthStatus) :
    Prop where
  /-- The status is a documented one. -/
  range : as.status ≤ 3
  /-- TLS is started only where it is offered. -/
  listen : as.status = 3 → tlsFlags.has sslModeTlsListen
  /-- Credentials come with the status 1 and only with it. -/
  auth : as.auth.isSome ↔ as.status = 1

/-- A status other than 1 comes without credentials. -/
theorem ManagesieveInAuthStatus.plain_valid {tlsFlags : Flag} {status : Int}
    (range : status ≤ 0 ∨ status = 2 ∨ status = 3)
    (listen : status = 3 → tlsFlags.has sslModeTlsListen) :
    (ManagesieveInAuthStatus.plain status).Valid tlsFlags where
  range := by simp only [plain]; omega
  listen := listen
  auth := by
    simp only [plain, Option.isSome_none, Bool.false_eq_true, false_iff]
    omega

/-- A status that is not positive is valid. -/
theorem ManagesieveInAuthStatus.small_valid {tlsFlags : Flag} {status : Int}
    (small : status ≤ 0) : (ManagesieveInAuthStatus.plain status).Valid tlsFlags :=
  plain_valid (.inl small) (by omega)

/-- A refusal has a negative status. -/
theorem managesieveInNo_negative (message : CString) :
    (managesieveInNo message).Obeys Contract.any (· < 0) :=
  obeys_bind_any fun _ => obeys_ite (fun _ => by simp) fun _ => by simp

/-- An answer has a status that is not positive. -/
theorem managesieveInOk_small (rc : Option ManagesieveResponseCode) (message : CString) :
    (managesieveInOk rc message).Obeys Contract.any (· ≤ 0) :=
  obeys_bind_any fun _ => obeys_ite (fun _ => by simp) fun _ => by simp

/-- What a command of ManageSieve gives when it reads credentials. -/
def ManagesieveInAuthStatus.Decoded (as : ManagesieveInAuthStatus) : Prop :=
  as.status ≤ 1 ∧ (as.auth.isSome ↔ 0 ≤ as.status)

theorem ManagesieveInAuthStatus.plain_decoded {status : Int} (negative : status < 0) :
    (ManagesieveInAuthStatus.plain status).Decoded := by
  simp only [Decoded, plain, Option.isSome_none, Bool.false_eq_true, false_iff]
  omega

/-- The status 1 in place of 0 says the same. -/
theorem ManagesieveInAuthStatus.Decoded.raised {as : ManagesieveInAuthStatus}
    (decoded : as.Decoded) :
    (if as.status = 0 then { as with status := 1 } else as).Decoded := by
  split
  · exact ⟨by simp, by simpa [Decoded, ‹as.status = 0›] using decoded.2⟩
  · exact decoded

theorem managesieveInSaslPlain_decoded (platform : Platform) (q : Queue) :
    (managesieveInSaslPlain platform q).Obeys Contract.any
      ManagesieveInAuthStatus.Decoded := by
  have refused (message : CString) : (do return .plain (← managesieveInNo message) :
      Dialogue ManagesieveInAuthStatus).Obeys Contract.any ManagesieveInAuthStatus.Decoded :=
    obeys_bind.mpr (obeys_mono (managesieveInNo_negative message) fun _ =>
      ManagesieveInAuthStatus.plain_decoded)
  unfold managesieveInSaslPlain
  refine obeys_ite (fun _ => refused _) fun _ => obeys_bind_any fun w => ?_
  refine obeys_ite (fun _ => ManagesieveInAuthStatus.plain_decoded (by omega)) fun _ => ?_
  refine obeys_ite (fun _ => refused _) fun _ => ?_
  split
  · exact fault_obeys trivial
  · split
    · exact ⟨by simp, by simp⟩
    · exact refused _
    · exact ManagesieveInAuthStatus.plain_decoded (by omega)
    · exact fault_obeys trivial

theorem managesieveInAuthenticateCmd_decoded (platform : Platform) (q : Queue) :
    (managesieveInAuthenticateCmd platform q).Obeys Contract.any
      ManagesieveInAuthStatus.Decoded := by
  have refused (message : CString) : (do return .plain (← managesieveInNo message) :
      Dialogue ManagesieveInAuthStatus).Obeys Contract.any ManagesieveInAuthStatus.Decoded :=
    obeys_bind.mpr (obeys_mono (managesieveInNo_negative message) fun _ =>
      ManagesieveInAuthStatus.plain_decoded)
  unfold managesieveInAuthenticateCmd
  refine obeys_ite (fun _ => refused _) fun _ => ?_
  split
  · exact ManagesieveInAuthStatus.plain_decoded (by omega)
  · refine obeys_ite (fun _ => ?_) fun _ => refused _
    refine obeys_bind.mpr (obeys_mono (managesieveInSaslPlain_decoded _ _) fun as decoded => ?_)
    exact decoded.raised

/-- What a command of ManageSieve gives when it reads no credentials. -/
theorem managesieveAnswer_valid {tlsFlags : Flag} {command : Dialogue Int}
    (small : command.Obeys Contract.any (· ≤ 0)) :
    (do return .plain (← command) : Dialogue ManagesieveInAuthStatus).Obeys Contract.any
      (ManagesieveInAuthStatus.Valid tlsFlags) :=
  obeys_bind.mpr (obeys_mono small fun _ => ManagesieveInAuthStatus.small_valid)

theorem managesieveInNo_small (message : CString) :
    (managesieveInNo message).Obeys Contract.any (· ≤ 0) :=
  obeys_mono (managesieveInNo_negative message) fun _ => Int.le_of_lt

theorem managesieveInCapabilityCmd_small (opt : Options) (q : Queue) (tlsFlags tlsState : Flag) :
    (managesieveInCapabilityCmd opt q tlsFlags tlsState).Obeys Contract.any (· ≤ 0) := by
  unfold managesieveInCapabilityCmd
  refine obeys_ite (fun _ => managesieveInNo_small _) fun _ => ?_
  split
  · exact fault_obeys trivial
  · exact obeys_bind_any fun _ => obeys_ite (fun _ => by simp) fun _ => by simp

theorem managesieveInLogoutCmd_small (q : Queue) :
    (managesieveInLogoutCmd q).Obeys Contract.any (· ≤ 0) :=
  obeys_ite (fun _ => managesieveInOk_small _ _) fun _ => managesieveInNo_small _

theorem managesieveInNoopCmd_small (platform : Platform) (q : Queue) :
    (managesieveInNoopCmd platform q).Obeys Contract.any (· ≤ 0) := by
  unfold managesieveInNoopCmd managesieveInNoopCmdStr
  refine obeys_ite (fun _ => managesieveInOk_small _ _) fun _ => ?_
  refine obeys_ite (fun _ => obeys_bind_any fun w => ?_) fun _ => managesieveInNo_small _
  refine obeys_ite (fun _ => by simp) fun _ => ?_
  refine obeys_ite (fun _ => managesieveInNo_small _) fun _ => ?_
  split
  · exact fault_obeys trivial
  · exact managesieveInOk_small _ _

theorem managesieveInStarttlsCmd_small (q : Queue) :
    (managesieveInStarttlsCmd q).Obeys Contract.any (· ≤ 0) :=
  obeys_ite (fun _ => managesieveInNo_small _) fun _ => managesieveInOk_small _ _

theorem managesieveInGetAuthLoop_valid (opt : Options) (platform : Platform)
    (tlsFlags tlsState : Flag) :
    (managesieveInGetAuthLoop opt platform tlsFlags tlsState).Obeys Contract.any
      (ManagesieveInAuthStatus.Valid tlsFlags) := by
  have unknown : (do
      if (← managesieveNo (lit "Unknown command, mate")) < 0 then return .plain (-1)
      else return .plain 0 : Dialogue ManagesieveInAuthStatus).Obeys Contract.any
        (ManagesieveInAuthStatus.Valid tlsFlags) :=
    obeys_bind_any fun _ =>
      obeys_ite (fun _ => ManagesieveInAuthStatus.small_valid (by omega)) fun _ =>
        ManagesieveInAuthStatus.small_valid (by omega)
  refine obeys_bind_any fun line => ?_
  split
  · exact ManagesieveInAuthStatus.small_valid (by omega)
  split
  · exact ManagesieveInAuthStatus.small_valid (by omega)
  refine obeys_ite (fun _ => ?authenticate) fun _ => obeys_ite (fun _ => ?capability) fun _ =>
    obeys_ite (fun _ => ?logout) fun _ => obeys_ite (fun _ => ?noop) fun _ => ?others
  case authenticate =>
    refine obeys_bind.mpr (obeys_mono (managesieveInAuthenticateCmd_decoded _ _)
      fun as decoded => ?_)
    have raised := decoded.raised
    have nonzero : (if as.status = 0 then { as with status := 1 } else as).status ≠ 0 := by
      split
      · simp
      · assumption
    refine ⟨by have := raised.1; omega, fun three => by have := raised.1; omega, ?_⟩
    have small := raised.1
    rw [raised.2]
    omega
  case capability => exact managesieveAnswer_valid (managesieveInCapabilityCmd_small _ _ _ _)
  case logout =>
    refine obeys_bind.mpr (obeys_mono (managesieveInLogoutCmd_small _) fun status small => ?_)
    refine ManagesieveInAuthStatus.plain_valid ?_ ?_ <;> split <;> omega
  case noop => exact managesieveAnswer_valid (managesieveInNoopCmd_small _ _)
  case others =>
    unfold managesieveStarttlsKnown
    refine obeys_bind.mpr (obeys_ite (fun listen => ?_) fun _ => ?_)
    · refine obeys_bind_any fun type => obeys_ite (fun _ => ?_) fun _ => unknown
      refine obeys_bind.mpr (obeys_mono (managesieveInStarttlsCmd_small _) fun status small => ?_)
      refine ManagesieveInAuthStatus.plain_valid ?_ fun _ => listen
      split <;> omega
    · exact unknown

/-- `managesieve_in_get_auth` returns what `main` expects. -/
theorem managesieveInGetAuth_valid (opt : Options) (platform : Platform)
    (tlsFlags tlsState : Flag) :
    (managesieveInGetAuth opt platform tlsFlags tlsState).Obeys Contract.any
      (InAuth.Valid tlsFlags) := by
  refine obeys_bind_any fun _ => obeys_ite (fun _ => InAuth.error_valid) fun _ => ?_
  refine obeys_loop (fun _ => True) trivial fun _ _ => ?_
  refine obeys_bind.mpr (obeys_mono (managesieveInGetAuthLoop_valid _ _ _ _) fun as valid => ?_)
  refine obeys_ite (fun _ => trivial) fun going => ?_
  obtain ⟨range, listen, auth⟩ := valid
  refine ⟨?_, fun two => listen ?_, ?_, fun t given => by simp at given⟩
  · dsimp only
    split <;> omega
  · dsimp only at two
    split at two <;> omega
  · dsimp only
    by_cases one : as.status = 1
    · simpa [one] using auth.mpr one
    · have other : ¬ (if 0 < as.status then as.status - 1 else as.status) = 0 := by
        split <;> omega
      simp [other]

end ManageSieve

/-- `in_get_auth` returns what `main` expects, in every protocol. -/
theorem Protocol.inGetAuth_valid (protocol : Protocol) (opt : Options) (platform : Platform)
    (tlsState : Flag) :
    (protocol.inGetAuth opt platform opt.sslMode tlsState).Obeys Contract.any
      (InAuth.Valid opt.sslMode) := by
  cases protocol with
  | pop3 => exact pop3InGetAuth_valid opt tlsState
  | imap4 => exact imap4InGetAuth_valid opt platform tlsState
  | managesieve => exact managesieveInGetAuth_valid opt platform opt.sslMode tlsState

end Perdition
