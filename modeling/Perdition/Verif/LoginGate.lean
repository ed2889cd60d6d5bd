import Perdition.Spec.Safety
import Perdition.Verif.Refinement

/-!
# The login gate and TLS

What the safety of the abstract session means for `main`: when a real server is connected and the
credentials are sent to it, when credentials are sent without TLS, and what the TLS state tells of
the connection of the client.
-/
namespace Perdition

open Lib Program

/-- A list is split at one of its places. -/
theorem split_at {α : Type} {list : List α} {place : Nat} {value : α}
    (found : list[place]? = some value) :
    list = list.take place ++ value :: list.drop (place + 1) := by
  obtain ⟨inside, same⟩ := List.getElem?_eq_some_iff.mp found
  rw [← same, List.getElem_cons_drop, List.take_append_drop]

/-- A configuration of POP3 with these bits of `ssl_mode`. -/
def Config.withSsl (sslMode : Flag) (authenticateIn : Bool) : Config :=
  { Config.sample .pop3 with
    opt := { Options.sample with sslMode := sslMode, authenticateIn := authenticateIn } }

/-- TLS is required of the client. -/
def sslModeListenForced : Flag := sslModeTlsListen ||| sslModeTlsListenForce

/-- TLS is required of the real server. -/
def sslModeOutgoingForced : Flag := sslModeTlsOutgoing ||| sslModeTlsOutgoingForce

/-! ## The login gate -/

/-- A connection to the real server is made, and `out_authenticate` is called, only for credentials
that pass the gate: logins are enabled, the client was upgraded before it sent them where that is
required, and local authentication accepted them where it is configured. -/
theorem login_gated (config : Config) (fuel : Nat) (w : World) (fresh : w.Fresh)
    {front back : List Event} {event : Event}
    (trace : mainTrace config fuel w = front ++ event :: back) :
    (∀ id, event = .opened id → ∃ base, Gate config front base) ∧
      ∀ auth unread, event = .noted (.outAuthenticate auth) unread →
        ∃ base, Gate config front base ∧ Phase.Mangles config stateRemoteLogin base auth := by
  obtain ⟨p, path⟩ := main_follows config fuel w fresh
  rw [← mainTrace, trace] at path
  constructor
  · rintro id rfl
    exact opened_gated path
  · rintro auth unread rfl
    exact outAuthenticate_gated path

/-- A client that starts TLS and logs in, with PAM and the real server content. -/
def gatedWorld : World :=
  { World.accepted [bytes "STLS\r\n"] [some [bytes "USER u\r\n", bytes "PASS p\r\n"]]
      [some ⟨[bytes "+OK hi\r\n", bytes "+OK\r\n", bytes "+OK\r\n"], [], []⟩] with
    pam := [true, true] }

theorem gatedWorld_fresh : gatedWorld.Fresh := ⟨rfl, rfl, rfl, rfl, rfl, rfl⟩

theorem gatedWorld_gated :
    ∃ base, Gate (.withSsl sslModeListenForced true)
        ((mainTrace (.withSsl sslModeListenForced true) 16 gatedWorld).take 49) base ∧
      Phase.Mangles (.withSsl sslModeListenForced true) stateRemoteLogin base
        (Auth.setPwd (some (lit "u")) (some (lit "p"))) := by
  have called : (mainTrace (.withSsl sslModeListenForced true) 16 gatedWorld)[49]? =
      some (.noted (.outAuthenticate (Auth.setPwd (some (lit "u")) (some (lit "p")))) []) := by
    decide +kernel
  exact (login_gated _ 16 gatedWorld gatedWorld_fresh (split_at called)).2 _ _ rfl

/-! ## The real server -/

/-- Where TLS with the real server is required, what is written to it before TLS was started on that
connection is a line of the set-up, whatever the credentials are. -/
theorem credentials_secured (config : Config) (fuel : Nat) (w : World) (fresh : w.Fresh)
    (outgoing : config.opt.sslMode.has sslModeTlsOutgoing)
    (force : config.opt.sslMode.has sslModeTlsOutgoingForce)
    {front back : List Event} {id : IoId} {content : List Byte} {ok : Bool}
    (server : id.party = .server)
    (trace : mainTrace config fuel w = front ++ .wrote id content ok :: back) :
    SetupLine config.protocol content ∨
      ∃ plain unread, .upgraded plain unread ∈ attemptOf front ∧ id = plain.secured := by
  obtain ⟨p, path⟩ := main_follows config fuel w fresh
  rw [← mainTrace, trace] at path
  exact upstream_of_path path (by simp [Phase.outgoingForced, outgoing, force]) server

/-- A real server that offers TLS. -/
def securedWorld : World :=
  .accepted [bytes "USER u\r\n", bytes "PASS p\r\n"] []
    [some ⟨[bytes "+OK hi\r\n", bytes "+OK\r\n", bytes "STLS\r\n.\r\n", bytes "+OK\r\n"], [],
      [some [bytes "+OK\r\n", bytes "+OK\r\n"]]⟩]

theorem securedWorld_secured :
    SetupLine .pop3 (bytes "USER u\r\n") ∨ ∃ plain unread,
      .upgraded plain unread ∈
          attemptOf ((mainTrace (.withSsl sslModeOutgoingForced false) 16 securedWorld).take 57) ∧
        (⟨.server, 0, 1⟩ : IoId) = plain.secured := by
  have written : (mainTrace (.withSsl sslModeOutgoingForced false) 16 securedWorld)[57]? =
      some (.wrote ⟨.server, 0, 1⟩ (bytes "USER u\r\n") true) := by
    decide +kernel
  exact credentials_secured _ 16 securedWorld (World.accepted_fresh _ _ _) (by decide)
    (by decide) rfl (split_at written)

/-! ## The TLS state of the client -/

/-- At each call of `in_get_auth` and at the test for disabled logins the TLS state tells whether the
client has started TLS, exactly when no attempt was given up after it did; and only then is a client
that has started TLS answered `Login Disabled`, unless logins are disabled altogether. -/
theorem main_tlsState (config : Config) (fuel : Nat) (w : World) (fresh : w.Fresh)
    {front back : List Event} {what : Note} {unread : List Byte}
    (trace : mainTrace config fuel w = front ++ .noted what unread :: back) :
    (∀ tlsState, what = .inGetAuth tlsState ∨ what = .loginDisabledTest tlsState →
      ((tlsState.has sslModeTlsListen ↔ StartedTls front) ↔ ¬ Forgotten front)) ∧
    (what = .loginDisabled → config.opt.loginDisabled = false → StartedTls front →
      Forgotten front) := by
  obtain ⟨p, path⟩ := main_follows config fuel w fresh
  rw [← mainTrace, trace] at path
  constructor
  · exact fun tlsState used => tlsState_exact path used
  · rintro rfl enabled started
    exact ⟨started, loginDisabled_exact path enabled⟩

/-- A client that starts TLS and tries to log in twice, where no real server can be reached. -/
def retryWorld : World :=
  .accepted [bytes "STLS\r\n"]
    [some [bytes "USER u\r\n", bytes "PASS p\r\n", bytes "USER u\r\n", bytes "PASS p\r\n"]]
    [none]

/-- Before the attempt that fails the TLS state is right. -/
theorem retryWorld_tlsState :
    (sslModeTlsListen.has sslModeTlsListen ↔
        StartedTls ((mainTrace (.withSsl sslModeListenForced false) 16 retryWorld).take 13)) ↔
      ¬ Forgotten ((mainTrace (.withSsl sslModeListenForced false) 16 retryWorld).take 13) := by
  have called : (mainTrace (.withSsl sslModeListenForced false) 16 retryWorld)[13]? =
      some (.noted (.inGetAuth sslModeTlsListen) []) := by
    decide +kernel
  exact (main_tlsState _ 16 retryWorld (World.accepted_fresh _ _ _) (split_at called)).1 _
    (.inl rfl)

/-- After it the TLS state is wrong, and the client is answered `Login Disabled`. -/
theorem retryWorld_forgets :
    retryWorld.Fresh ∧ ∃ front back, mainTrace (.withSsl sslModeListenForced false) 16 retryWorld =
        front ++ .noted (.inGetAuth 0) [] :: back ∧
      ¬ ((0 : Flag).has sslModeTlsListen ↔ StartedTls front) ∧
      .noted .loginDisabled [] ∈ back := by
  have called : (mainTrace (.withSsl sslModeListenForced false) 16 retryWorld)[38]? =
      some (.noted (.inGetAuth 0) []) := by
    decide +kernel
  have started : .noted .starttls [] ∈
      (mainTrace (.withSsl sslModeListenForced false) 16 retryWorld).take 38 := by
    decide +kernel
  refine ⟨World.accepted_fresh _ _ _, _, _, split_at called, fun same => ?_, by decide +kernel⟩
  exact absurd (same.mpr ⟨[], started⟩) (by decide)

end Perdition
