import Perdition.Session

/-!
# The parts of an attempt

What the parts of an attempt do beside talking: a contract that allows talking, PAM, closing the
connection and leaving the program is kept by every part that does nothing else, and every part that
goes back to the start of the loop goes there cleaned up.
-/
namespace Perdition

open Lib Program

/-- The loop continues only where `PERDITION_CLEAN_UP_MAIN` was executed. -/
def CleanedUp (r : LoopState ⊕ LoopState) : Prop :=
  ∀ again, r = .inl again → ∃ st : LoopState, again = st.cleanedUp

/-- The contract allows what the ends of an attempt do. -/
structure Ending (contract : Contract SessionSig) : Prop where
  io : ∀ party op, contract.allowed (.io party op)
  closeServer : contract.allowed .closeServer
  pamStart : ∀ user, contract.allowed (.pamStart user)
  pamAuthenticate : ∀ user passwd, contract.allowed (.pamAuthenticate user passwd)
  exit : ∀ status, contract.allowed (.exit status)
  cleanUp : contract.allowed (.note .cleanUp)
  loggedIn : contract.allowed (.note .loggedIn)

/-- The contract allows all that follows the call of `in_get_auth` but STARTTLS. -/
structure Locating (contract : Contract SessionSig) : Prop extends Ending contract where
  map : contract.allowed .map
  flush : contract.allowed .tokenFlush
  dial : ∀ server port, contract.allowed (.clientOpen server port)
  secure : contract.allowed .sslClientConnection
  located : ∀ auth, contract.allowed (.note (.located auth))
  inAuthenticated : ∀ auth status, contract.allowed (.note (.inAuthenticated auth status))
  outSetup : contract.allowed (.note .outSetup)
  outAuthenticate : ∀ auth, contract.allowed (.note (.outAuthenticate auth))

variable {contract : Contract SessionSig}

/-- The user name of `mangledId`, where there is one. -/
def mangledName (config : Config) (auth : Auth) (state : Flag) : Option Mangled :=
  auth.getAuthorisationId.bind fun name =>
    usernameMangle config.opt config.platform name state

theorem mangledId_pure {config : Config} {auth : Auth} {state : Flag} {id : Mangled}
    (named : mangledName config auth state = some id) : mangledId config auth state = pure id := by
  have ⟨name, holds, mangles⟩ := Option.bind_eq_some_iff.mp named
  unfold mangledId
  rw [holds]
  dsimp only
  rw [mangles]

section Ending

variable (ending : Ending contract)
include ending

theorem client_obeys {α : Type} (dialogue : Dialogue α) :
    (Session.client dialogue).Obeys contract fun _ => True :=
  obeys_interpret (obeys_any dialogue) fun op _ => ⟨ending.io .client op, fun _ _ => trivial⟩

theorem exchange_obeys {α : Type} (exchange : Exchange α) :
    (Session.exchange exchange).Obeys contract fun _ => True :=
  obeys_interpret (obeys_any exchange) fun op _ => ⟨ending.io op.1 op.2, fun _ _ => trivial⟩

theorem exit_obeys {α : Type} (status : Int) {result : α → Prop} :
    (Session.exit status : Session α).Obeys contract result :=
  ⟨ending.exit status, fun never _ => nomatch never⟩

theorem sessionFault_obeys {α : Type} (why : Fault) {result : α → Prop} :
    (Session.fault why : Session α).Obeys contract result :=
  ⟨ending.io .client (.fault why), fun never _ => nomatch never⟩

theorem mangledId_obeys (config : Config) (auth : Auth) (state : Flag) :
    (mangledId config auth state).Obeys contract
      fun id => mangledName config auth state = some id := by
  unfold mangledId mangledName
  split
  · exact obeys_ite (fun _ => sessionFault_obeys ending _) fun _ => exit_obeys ending _
  · rename_i name named
    rw [named]
    split
    · exact exit_obeys ending _
    · assumption

theorem writeServerResp_obeys (config : Config) (st : LoopState) (capture : Option Capture) :
    (writeServerResp config st capture).Obeys contract fun _ => True := by
  unfold writeServerResp
  split
  · exact sessionFault_obeys ending _
  · exact obeys_then (client_obeys ending _) fun _ =>
      obeys_ite (fun _ => exit_obeys ending _) fun _ => trivial

theorem inAuthenticate_obeys (protocol : Protocol) (auth : Auth) (tag : Option Token) :
    (protocol.inAuthenticate auth tag).Obeys contract fun _ => True := by
  have pam (user : Option CString) (reason : CString) : (do
      if !(← Session.perform (.pamStart user)) then return -1
      else if !(← Session.perform (.pamAuthenticate auth.getAuthorisationId auth.passwd)) then
        if (← Session.client (protocol.writeStr nullFlag tag (some (protocol.type .no))
            (some reason))) < 0 then return -1
        else return 0
      else return 1 : Session Int).Obeys contract fun _ => True := by
    refine obeys_step (ending.pamStart _) fun started _ => obeys_ite (fun _ => trivial) fun _ => ?_
    refine obeys_step (ending.pamAuthenticate _ _) fun known _ =>
      obeys_ite (fun _ => ?_) fun _ => trivial
    exact obeys_then (client_obeys ending _) fun _ => obeys_ite (fun _ => trivial) fun _ => trivial
  cases protocol with
  | pop3 => exact pam _ _
  | imap4 => exact pam _ _
  | managesieve => trivial

theorem cleanUpMain_obeys (st : LoopState) : (cleanUpMain st).Obeys contract CleanedUp :=
  obeys_step ending.cleanUp fun _ _ => obeys_step ending.closeServer fun _ _ =>
    fun _ same => ⟨st, (Sum.inl.inj same).symm⟩

theorem failAttempt_obeys (config : Config) (st : LoopState) (reason : CString) :
    (failAttempt config st reason).Obeys contract CleanedUp := by
  have told : (loginFailedProtocol config st reason).Obeys contract fun _ => True :=
    obeys_then (client_obeys ending _) fun _ =>
      obeys_ite (fun _ => exit_obeys ending _) fun _ => trivial
  exact obeys_then told fun _ => cleanUpMain_obeys ending st

theorem loggedIn_obeys (st : LoopState) :
    (do Session.note .loggedIn; return .inr st : Attempt).Obeys contract CleanedUp :=
  obeys_step ending.loggedIn fun _ _ _ same => nomatch same

theorem finish_obeys (config : Config) (st : LoopState) (result : OutAuth) :
    (finish config st result).Obeys contract CleanedUp := by
  refine obeys_ite (fun _ => ?_) fun _ => ?_
  · refine obeys_then (exchange_obeys ending _) fun ourTag => obeys_ite (fun _ => ?_) fun _ => ?_
    · exact obeys_then (writeServerResp_obeys ending _ _ _) fun st => cleanUpMain_obeys ending st
    · exact failAttempt_obeys ending _ _ _
  refine obeys_ite (fun _ => failAttempt_obeys ending _ _ _) fun _ => ?_
  refine obeys_ite (fun _ => failAttempt_obeys ending _ _ _) fun _ => ?_
  refine obeys_ite (fun _ => exit_obeys ending _) fun _ => obeys_ite (fun _ => ?_) fun _ => ?_
  · exact obeys_then (writeServerResp_obeys ending _ _ _) fun st => loggedIn_obeys ending st
  · exact obeys_then (client_obeys ending _) fun _ =>
      obeys_ite (fun _ => exit_obeys ending _) fun _ => loggedIn_obeys ending _

theorem quitAttempt_obeys (config : Config) (st : LoopState) (reason : CString) :
    (quitAttempt config st reason).Obeys contract CleanedUp :=
  obeys_then (exchange_obeys ending _) fun _ => failAttempt_obeys ending _ _ _

end Ending

section Locating

variable (locating : Locating contract)
include locating

theorem lookUp_obeys (config : Config) (st : LoopState) :
    (lookUp config st).Obeys contract fun _ => True := by
  refine obeys_bind.mpr (obeys_mono (mangledId_obeys locating.toEnding config _ _) fun id _ => ?_)
  refine obeys_step locating.map fun map _ => obeys_ite (fun _ => trivial) fun _ => ?_
  split
  · exact sessionFault_obeys locating.toEnding _
  · trivial

theorem authenticateServer_obeys (config : Config) (st : LoopState) (auth : Auth) (status : Int) :
    (authenticateServer config st auth status).Obeys contract CleanedUp :=
  obeys_step locating.flush fun _ _ => obeys_step (locating.outAuthenticate auth) fun _ _ =>
    obeys_then (exchange_obeys locating.toEnding _) fun result =>
      finish_obeys locating.toEnding config st result

theorem secureServer_obeys (config : Config) (st : LoopState) (auth : Auth) (status : Int) :
    (secureServer config st auth status).Obeys contract CleanedUp := by
  have quits (reason : CString) := quitAttempt_obeys locating.toEnding config st reason
  refine obeys_ite (fun _ => quits _) fun _ => ?_
  refine obeys_ite (fun _ => exit_obeys locating.toEnding _) fun _ => obeys_ite (fun _ => ?_) fun _ => ?_
  · exact obeys_step locating.secure fun _ _ =>
      obeys_ite (fun _ => exit_obeys locating.toEnding _)
        fun _ => authenticateServer_obeys locating _ _ _ _
  · exact obeys_ite (fun _ => quits _) fun _ => authenticateServer_obeys locating _ _ _ _

theorem setUpServer_obeys (config : Config) (st : LoopState) :
    (setUpServer config st).Obeys contract CleanedUp := by
  refine obeys_bind.mpr (obeys_mono (mangledId_obeys locating.toEnding _ _ _) fun id _ => ?_)
  exact obeys_step locating.outSetup fun _ _ =>
    obeys_then (exchange_obeys locating.toEnding _) fun _ => secureServer_obeys locating _ _ _ _

theorem dialServer_obeys (config : Config) (st : LoopState) (server : CString) :
    (dialServer config st server).Obeys contract CleanedUp := by
  refine obeys_step (locating.dial _ _) fun _ _ =>
    obeys_ite (fun _ => failAttempt_obeys locating.toEnding _ _ _) fun _ => ?_
  refine obeys_ite (fun _ => ?_) fun _ => setUpServer_obeys locating _ _
  exact obeys_step locating.secure fun _ _ =>
    obeys_ite (fun _ => exit_obeys locating.toEnding _) fun _ => setUpServer_obeys locating _ _

theorem authenticateLocally_obeys (config : Config) (st : LoopState) (server : CString) :
    (authenticateLocally config st server).Obeys contract CleanedUp := by
  refine obeys_ite (fun _ => ?_) fun _ => dialServer_obeys locating _ _ _
  refine obeys_bind.mpr (obeys_mono (mangledId_obeys locating.toEnding _ _ _) fun id _ => ?_)
  refine obeys_then (inAuthenticate_obeys locating.toEnding _ _ _) fun status =>
    obeys_step (locating.inAuthenticated _ _) fun _ _ => ?_
  refine obeys_ite (fun _ => cleanUpMain_obeys locating.toEnding _) fun _ => ?_
  exact obeys_ite (fun _ => exit_obeys locating.toEnding _) fun _ => dialServer_obeys locating _ _ _

theorem locateServer_obeys (config : Config) (st : LoopState) :
    (locateServer config st).Obeys contract CleanedUp := by
  refine obeys_then (lookUp_obeys locating _ _) fun st => ?_
  dsimp only
  split
  · exact failAttempt_obeys locating.toEnding _ _ _
  refine obeys_ite (fun _ => failAttempt_obeys locating.toEnding _ _ _) fun _ => ?_
  exact obeys_step (locating.located _) fun _ _ => authenticateLocally_obeys locating _ _ _

end Locating

end Perdition
