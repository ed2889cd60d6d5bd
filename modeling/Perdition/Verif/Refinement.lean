import Perdition.Verif.Returns
import Perdition.Verif.Setup

/-!
# The authentication loop follows the phases

The events of every run of `main` are the labels of a path of the abstract session. Each function of
the loop has a triple that says in which phases it may be called and in which it returns; the tag in
use stays a tag of the program.
-/
namespace Perdition

open Lib Program

/-! ## Worlds and phases -/

/-- What has happened in a world leads to a phase that agrees with it. -/
structure Matches (config : Config) (p : Phase) (w : World) : Prop where
  /-- The events are the labels of a path. -/
  path : SessionPath config w.trace p
  /-- The client is the same. -/
  client : w.client.id = p.client
  /-- So is the real server. -/
  server : w.server.map (·.id) = p.server
  /-- Unread bytes come from where the phase says. -/
  source : w.unread = [] ∨ p.source = some w.source

/-- What has happened in a world is the labels of a path. -/
def Follows (config : Config) (w : World) : Prop := ∃ p, SessionPath config w.trace p

/-- A world is in a phase of a kind. -/
def In (config : Config) (kind : Phase → Prop) (w : World) : Prop :=
  ∃ p, Matches config p w ∧ kind p

theorem In.follows {config : Config} {kind : Phase → Prop} {w : World} (holds : In config kind w) :
    Follows config w :=
  let ⟨p, given, _⟩ := holds
  ⟨p, given.path⟩

theorem In.mono {config : Config} {kind kind' : Phase → Prop} {w : World}
    (holds : In config kind w) (weaker : ∀ p, kind p → kind' p) : In config kind' w :=
  let ⟨p, given, known⟩ := holds
  ⟨p, given, weaker p known⟩

/-- A fact that does not depend on the phase can be taken out. -/
theorem In.fact {config : Config} {kind : Phase → Prop} {fact : Prop} {w : World}
    (holds : In config kind w) (known : ∀ p, kind p → fact) : fact :=
  let ⟨p, _, given⟩ := holds
  known p given

/-- A kind of phase that does not depend on whose bytes are unread. -/
def Steady (kind : Phase → Prop) : Prop := ∀ p source, kind p → kind { p with source := source }

/-- What holds after success, and what after failure. -/
def choice (success failure : World → Prop) : Bool → World → Prop
  | true => success
  | false => failure

/-! ## Operations on a connection -/

section Operations

variable {config : Config} {kind : Phase → Prop}

theorem Connection.read_id (conn : Connection) : conn.read.2.id = conn.id := by
  unfold Connection.read
  split
  · rfl
  · split <;> rfl

theorem Connection.write_id (conn : Connection) : conn.write.2.id = conn.id := by
  unfold Connection.write
  split <;> rfl

/-- What taking a byte does to a connection: it comes from the buffer, or it is read now. -/
theorem Channel.nextByte_spec (ch : Channel) :
    ch.nextByte.2.conn.id = ch.conn.id ∧
      match ch.nextByte.1 with
      | none => ch.nextByte.2.unread = []
      | some _ => ch.nextByte.2.source = ch.conn.id ∨
          ch.unread ≠ [] ∧ ch.nextByte.2.source = ch.source := by
  unfold Channel.nextByte
  cases buffered : ch.unread with
  | cons b rest => simp
  | nil =>
    have id := ch.conn.read_id
    generalize ch.conn.read = result at id
    obtain ⟨chunk, conn⟩ := result
    cases chunk with
    | nil => exact ⟨id, rfl⟩
    | cons b rest => exact ⟨id, .inl id⟩

theorem Matches.conn {p : Phase} {w : World} {party : Party} {ch : Channel}
    (given : Matches config p w) (found : w.channel party = some ch) :
    p.conn party = some ch.conn.id ∧ ch.unread = w.unread ∧ ch.source = w.source := by
  cases party with
  | client =>
    cases found
    exact ⟨congrArg some given.client.symm, rfl, rfl⟩
  | server =>
    have server := given.server
    cases present : w.server with
    | none => simp [World.channel, present] at found
    | some conn =>
      simp only [World.channel, present, Option.map_some, Option.some.injEq] at found
      subst found
      rw [present] at server
      exact ⟨server.symm, rfl, rfl⟩

/-- After an operation on a connection the phase that the events lead to agrees. -/
theorem Matches.put {p p' : Phase} {w : World} {party : Party} {ch ch' : Channel}
    {events : List Event} (given : Matches config p w) (found : w.channel party = some ch)
    (same : ch'.conn.id = ch.conn.id) (source : ch'.unread = [] ∨ p'.source = some ch'.source)
    (client : p'.client = p.client) (server : p'.server = p.server)
    (path : SessionPath config (w.trace ++ events) p') :
    Matches config p' ((w.putChannel party ch').record events) := by
  have conn := (given.conn found).1
  cases party with
  | client =>
    cases found
    exact ⟨path, by rw [client, ← given.client]; exact same, by rw [server]; exact given.server,
      source⟩
  | server =>
    refine ⟨path, by rw [client]; exact given.client, ?_, source⟩
    rw [server]
    simp only [World.putChannel, World.record, Option.map_some, same]
    exact conn.symm

/-- The next byte is taken where the party's bytes are read. -/
theorem io_nextByte {party : Party} (turn : ∀ p, kind p → p.stage.reads = some party)
    (steady : Steady kind) (w : World) (holds : In config kind w) :
    (w.io party .nextByte).Meets (fun _ => In config kind) (Follows config) := by
  obtain ⟨p, given, known⟩ := holds
  unfold World.io
  cases found : w.channel party with
  | none => exact ⟨p, given.path⟩
  | some ch =>
    obtain ⟨conn, unread, source⟩ := given.conn found
    obtain ⟨same, what⟩ := ch.nextByte_spec
    simp only [Channel.step, Outcome.Meets]
    cases taken : ch.nextByte.1 with
    | none =>
      rw [taken] at what
      exact ⟨p, given.put found same (.inl what) rfl rfl
        (given.path.more (.starved (turn p known) conn)), known⟩
    | some b =>
      rw [taken] at what
      have origin : ch.nextByte.2.source = ch.conn.id ∨
          p.source = some ch.nextByte.2.source := by
        refine what.imp_right fun ⟨left, kept⟩ => ?_
        rw [kept, source]
        exact given.source.resolve_left (unread ▸ left)
      have next : Phase.Step config p (.took ch.conn.id ch.nextByte.2.source b)
          { p with source := some ch.nextByte.2.source } :=
        .took (turn p known) conn origin
      exact ⟨{ p with source := some ch.nextByte.2.source }, given.put found same (.inr rfl) rfl rfl (given.path.more next),
        steady p _ known⟩

/-- Bytes are written where the phase allows it. -/
theorem io_write {party : Party} {content : List Byte}
    (step : ∀ p id ok, kind p → p.conn party = some id →
      Phase.Step config p (.wrote id content ok) p)
    (w : World) (holds : In config kind w) :
    (w.io party (.write content)).Meets (fun _ => In config kind) (Follows config) := by
  obtain ⟨p, given, known⟩ := holds
  unfold World.io
  cases found : w.channel party with
  | none => exact ⟨p, given.path⟩
  | some ch =>
    obtain ⟨conn, unread, source⟩ := given.conn found
    refine ⟨p, given.put found ch.conn.write_id ?_ rfl rfl
      (given.path.more (step p _ _ known conn)), known⟩
    dsimp only
    rw [unread, source]
    exact given.source

/-- An operation on a connection in a phase that allows it. -/
theorem io_in {party : Party} (op : IoOp)
    (reads : op = .nextByte → Steady kind ∧ ∀ p, kind p → p.stage.reads = some party)
    (writes : ∀ content, op = .write content → ∀ p id ok, kind p → p.conn party = some id →
      Phase.Step config p (.wrote id content ok) p)
    (w : World) (holds : In config kind w) :
    (w.io party op).Meets (fun _ => In config kind) (Follows config) := by
  have quiet {ch : Channel} (found : w.channel party = some ch) :
      In config kind ((w.putChannel party ch).record []) := by
    obtain ⟨p, given, known⟩ := holds
    obtain ⟨conn, unread, source⟩ := given.conn found
    exact ⟨p, given.put found rfl (by rw [unread, source]; exact given.source) rfl rfl
      (by simpa using given.path), known⟩
  cases op with
  | nextByte => exact io_nextByte (reads rfl).2 (reads rfl).1 w holds
  | write content => exact io_write (writes content rfl) w holds
  | getType | stale count =>
    unfold World.io
    cases found : w.channel party with
    | none => exact holds.follows
    | some ch => exact quiet found
  | fault why =>
    unfold World.io
    cases found : w.channel party with
    | none => exact holds.follows
    | some ch => exact holds.follows

/-! ## Dialogues and exchanges -/

/-- A dialogue with the client, where the client is read from and written to. -/
theorem client_in {α : Type} {dialogue : Dialogue α} {result : α → Prop}
    (obeys : dialogue.Obeys Contract.any result)
    (reads : ∀ p, kind p → p.stage.reads = some .client)
    (answers : ∀ p, kind p → p.stage.answers) (steady : Steady kind) :
    Triple World.step (In config kind) (Session.client dialogue)
      (fun a w => result a ∧ In config kind w) (Follows config) := by
  intro fuel w holds
  rw [Session.run_client]
  refine triple_of_obeys obeys (fun op _ w holds => ?_) (fun _ => In.follows) fuel w holds
  refine Outcome.Meets.mono (io_in op (fun _ => ⟨steady, reads⟩) ?_ w holds)
    (fun _ _ => And.intro trivial) fun _ => id
  intro content _ p id ok known conn
  cases conn
  exact .answered (answers p known)

/-- A dialogue with the client that reads nothing. -/
theorem answer_in {α : Type} {dialogue : Dialogue α} {result : α → Prop}
    (obeys : dialogue.Obeys writing result) (answers : ∀ p, kind p → p.stage.answers) :
    Triple World.step (In config kind) (Session.client dialogue)
      (fun a w => result a ∧ In config kind w) (Follows config) := by
  intro fuel w holds
  rw [Session.run_client]
  refine triple_of_obeys obeys (fun op allowed w holds => ?_) (fun _ => In.follows) fuel w holds
  refine Outcome.Meets.mono (io_in op ?_ ?_ w holds) (fun _ _ => And.intro trivial) fun _ => id
  · rintro rfl
    exact allowed.elim
  · intro content _ p id ok known conn
    cases conn
    exact .answered (answers p known)

/-- An exchange with the real server, of lines that may be sent to it. -/
theorem exchange_in {α : Type} {exchange : Exchange α} {result : α → Prop}
    {line : List Byte → Prop} (obeys : exchange.Obeys (sending line) result)
    (reads : ∀ p, kind p → p.stage.reads = some .server)
    (answers : ∀ p, kind p → p.stage.answers) (steady : Steady kind)
    (lines : ∀ p id content ok, kind p → p.server = some id → line content →
      Phase.Step config p (.wrote id content ok) p) :
    Triple World.step (In config kind) (Session.exchange exchange)
      (fun a w => result a ∧ In config kind w) (Follows config) := by
  intro fuel w holds
  rw [Session.run_exchange]
  refine triple_of_obeys obeys (fun op allowed w holds => ?_) (fun _ => In.follows) fuel w holds
  obtain ⟨party, op⟩ := op
  refine Outcome.Meets.mono (io_in op ?_ ?_ w holds) (fun _ _ => And.intro trivial) fun _ => id
  · rintro rfl
    cases party with
    | client => exact allowed.elim
    | server => exact ⟨steady, reads⟩
  · rintro content rfl p id ok known conn
    cases party with
    | client =>
      cases conn
      exact .answered (answers p known)
    | server => exact lines p id content ok known conn allowed

/-! ## Other operations of the session -/

/-- A place is passed. -/
theorem note_in {what : Note} (kind' : Phase → Prop)
    (step : ∀ p unread, kind p → ∃ p', Phase.Step config p (.noted what unread) p' ∧
      p'.client = p.client ∧ p'.server = p.server ∧ (unread = [] ∨ p'.source = p.source) ∧
      kind' p') :
    Triple World.step (In config kind) (Session.note what) (fun _ => In config kind')
      (Follows config) := by
  rintro fuel w ⟨p, given, known⟩
  obtain ⟨p', next, client, server, source, known'⟩ := step p w.unread known
  refine ⟨p', ⟨given.path.more next, client ▸ given.client, server ▸ given.server, ?_⟩, known'⟩
  rcases source with empty | same
  · exact .inl empty
  · rw [same]
    exact given.source

/-- The read buffer is emptied. -/
theorem flush_in (kind' : Phase → Prop)
    (step : ∀ p, kind p → ∃ p', Phase.Step config p .flushed p' ∧
      p'.client = p.client ∧ p'.server = p.server ∧ kind' p') :
    Triple World.step (In config kind) (Session.perform .tokenFlush) (fun _ => In config kind')
      (Follows config) := by
  rintro fuel w ⟨p, given, known⟩
  obtain ⟨p', next, client, server, known'⟩ := step p known
  exact ⟨p', ⟨given.path.more next, client ▸ given.client, server ▸ given.server, .inl rfl⟩,
    known'⟩

/-- The session ends. -/
theorem exit_in {α : Type} {status : Int} {after : α → World → Prop} :
    Triple World.step (In config kind) (Session.exit status) after (Follows config) :=
  fun _ _ holds => holds.follows

/-- Memory outside an object is used. -/
theorem sessionFault_in {α : Type} {why : Fault} {after : α → World → Prop} :
    Triple World.step (In config kind) (Session.fault why) after (Follows config) :=
  fun _ _ holds => holds.follows

theorem Connection.upgrade_id {conn after : Connection} (upgraded : conn.upgrade = some after) :
    after.id = conn.id.secured := by
  unfold Connection.upgrade at upgraded
  split at upgraded
  · cases upgraded
    rfl
  · cases upgraded

/-- A handshake with the client. -/
theorem sslServer_in (kind' : Phase → Prop)
    (failed : ∀ p, kind p → Phase.Step config p (.upgradeFailed p.client) p)
    (step : ∀ p unread, kind p → ∃ p', Phase.Step config p (.upgraded p.client unread) p' ∧
      p'.client = p.client.secured ∧ p'.server = p.server ∧ p'.source = p.source ∧ kind' p') :
    Triple World.step (In config kind) (Session.perform .sslServerConnection)
      (choice (In config kind') (In config kind)) (Follows config) := by
  rintro fuel w ⟨p, given, known⟩
  change Outcome.Meets _ _ (.done w.sslServerConnection.1 w.sslServerConnection.2)
  unfold World.sslServerConnection
  split
  · refine ⟨p, ⟨given.path.more ?_, given.client, given.server, given.source⟩, known⟩
    rw [given.client]
    exact failed p known
  · rename_i conn upgraded
    obtain ⟨p', next, client, server, source, known'⟩ := step p w.unread known
    refine ⟨p', ⟨?_, ?_, ?_, ?_⟩, known'⟩
    · rw [← given.client] at next
      exact given.path.more next
    · rw [client, ← given.client]
      exact Connection.upgrade_id upgraded
    · rw [server]
      exact given.server
    · rw [source]
      exact given.source

/-- A handshake with the real server. -/
theorem sslClient_in (kind' : Phase → Prop)
    (failed : ∀ p id, kind p → p.server = some id → Phase.Step config p (.upgradeFailed id) p)
    (step : ∀ p id unread, kind p → p.server = some id →
      ∃ p', Phase.Step config p (.upgraded id unread) p' ∧ p'.client = p.client ∧
        p'.server = some id.secured ∧ p'.source = p.source ∧ kind' p') :
    Triple World.step (In config kind) (Session.perform .sslClientConnection)
      (choice (In config kind') (In config kind)) (Follows config) := by
  rintro fuel w ⟨p, given, known⟩
  change Outcome.Meets _ _ w.sslClientConnection
  unfold World.sslClientConnection
  have same := given.server
  split
  · exact ⟨p, given.path⟩
  · rename_i old present
    rw [present, Option.map_some] at same
    split
    · exact ⟨p, ⟨given.path.more (failed p _ known same.symm), given.client, given.server,
        given.source⟩, known⟩
    · rename_i conn upgraded
      obtain ⟨p', next, client, server, source, known'⟩ := step p _ w.unread known same.symm
      refine ⟨p', ⟨given.path.more next, ?_, ?_, ?_⟩, known'⟩
      · rw [client]
        exact given.client
      · rw [server]
        exact congrArg some (Connection.upgrade_id upgraded)
      · rw [source]
        exact given.source

/-- A connection to the real server. -/
theorem clientOpen_in {server port : CString} (kind' : Phase → Prop)
    (admits : ∀ p, kind p → Phase.Admits config p)
    (opened : ∀ p id, kind p → kind' { p with stage := .connected, server := some id }) :
    Triple World.step (In config kind) (Session.perform (.clientOpen server port))
      (choice (In config kind') (In config (·.stage = .failing))) (Follows config) := by
  rintro fuel w ⟨p, given, known⟩
  change Outcome.Meets _ _ (.done w.clientOpen.1 w.clientOpen.2)
  have failed : In config (·.stage = .failing) (w.record [.openFailed]) :=
    ⟨{ p with stage := .failing }, ⟨given.path.more (.openFailed (admits p known)),
      given.client, given.server, given.source⟩, rfl⟩
  unfold World.clientOpen
  split
  · rename_i script rest _
    refine ⟨{ p with stage := .connected, server := some (w.serverConnection script).id },
      ⟨given.path.more (.opened (admits p known) rfl rfl), given.client, rfl, given.source⟩,
      opened p _ known⟩
  · obtain ⟨p', given', known'⟩ := failed
    exact ⟨p', ⟨given'.path, given'.client, given'.server, given'.source⟩, known'⟩
  · exact failed

/-- The connection to the real server is closed, where there is one. -/
theorem closeServer_in (turn : ∀ p, kind p → p.stage = .idle)
    (closed : ∀ p, kind p → kind { p with server := none }) :
    Triple World.step (In config kind) (Session.perform .closeServer)
      (fun _ => In config kind) (Follows config) := by
  rintro fuel w ⟨p, given, known⟩
  change In config kind w.closeServer
  unfold World.closeServer
  have same := given.server
  split
  · exact ⟨p, given, known⟩
  · rename_i conn present
    rw [present, Option.map_some] at same
    exact ⟨{ p with server := none }, ⟨given.path.more (.closed (turn p known) same.symm),
      given.client, rfl, given.source⟩, closed p known⟩

/-- A lookup leaves no trace. -/
theorem map_in :
    Triple World.step (In config kind) (Session.perform .map) (fun _ => In config kind)
      (Follows config) :=
  fun _ _ ⟨p, given, known⟩ =>
    ⟨p, ⟨given.path, given.client, given.server, given.source⟩, known⟩

/-- Taking a result of PAM changes nothing that a phase speaks of. -/
theorem Matches.nextPam {p : Phase} {w : World} (given : Matches config p w) {event : Event}
    (next : Phase.Step config p event p) :
    Matches config p (w.nextPam.2.record [event]) := by
  unfold World.nextPam
  split <;> exact ⟨given.path.more next, given.client, given.server, given.source⟩

/-- PAM is started. -/
theorem pamStart_in {user : Option CString}
    (turn : ∀ p, kind p → p.stage = .located) (wanted : config.opt.authenticateIn) :
    Triple World.step (In config kind) (Session.perform (.pamStart user))
      (fun _ => In config kind) (Follows config) :=
  fun _ _ ⟨p, given, known⟩ => ⟨p, given.nextPam (.pamStarted (turn p known) wanted), known⟩

/-- PAM authenticates the client or not. -/
theorem pamAuthenticate_in {user passwd : Option CString}
    (turn : ∀ p, kind p → p.stage = .located) (wanted : config.opt.authenticateIn) :
    Triple World.step (In config kind) (Session.perform (.pamAuthenticate user passwd))
      (fun _ => In config kind) (Follows config) :=
  fun _ _ ⟨p, given, known⟩ =>
    ⟨p, given.nextPam (.pamAuthenticated (turn p known) wanted), known⟩

end Operations

/-! ## The functions of the loop -/

/-- A stage and what is known of the TLS of the client there. -/
def Standing (stage : Stage) (tlsState : Flag) (p : Phase) : Prop :=
  p.stage = stage ∧ p.tlsState = tlsState

/-- A stage and the credentials of the attempt. -/
def Holding (stage : Stage) (auth : Auth) (p : Phase) : Prop :=
  p.stage = stage ∧ p.auth = auth

/-- What an attempt leaves: the loop goes on where no attempt is under way, or is left. -/
def Attempted (config : Config) : LoopState ⊕ LoopState → World → Prop
  | .inl st, w => OurTag st.ourTag ∧ In config (Standing .idle st.tlsState) w
  | .inr _, w => Follows config w

/-- The triple of an attempt. -/
def Attempts (config : Config) (kind : Phase → Prop) (program : Attempt) : Prop :=
  Triple World.step (In config kind) program (Attempted config) (Follows config)

section Functions

variable {config : Config} {kind : Phase → Prop} {st : LoopState}

theorem cleanUpMain_attempts (fails : ∀ p, kind p → p.stage.fails) (ours : OurTag st.ourTag) :
    Attempts config kind (cleanUpMain st) := by
  refine triple_bind (note_in (Standing .idle 0) fun p unread known =>
    ⟨{ p with stage := .idle, tlsState := 0 }, .cleanUp (fails p known), rfl, rfl, .inr rfl, rfl, rfl⟩)
    fun _ => ?_
  refine triple_bind (closeServer_in (fun p known => known.1) fun p known => known) fun _ => ?_
  exact triple_pure fun w holds => ⟨ours, holds⟩

theorem loginFailed_in (answers : ∀ p, kind p → p.stage.answers) (reason : CString) :
    Triple World.step (In config kind) (loginFailedProtocol config st reason)
      (fun _ => In config kind) (Follows config) := by
  refine triple_bind (answer_in (Protocol.writeStr_writing _ _ _ _ _) answers) fun status => ?_
  refine triple_ite (fun _ => ?_) fun _ => ?_
  · exact triple_mono exit_in (fun w holds => holds.2) (fun _ _ => id) fun _ => id
  · exact triple_pure fun w holds => holds.2

theorem failAttempt_attempts (fails : ∀ p, kind p → p.stage.fails)
    (answers : ∀ p, kind p → p.stage.answers) (ours : OurTag st.ourTag) (reason : CString) :
    Attempts config kind (failAttempt config st reason) :=
  triple_bind (loginFailed_in answers reason) fun _ => cleanUpMain_attempts fails ours

/-- The user name is mangled, or the session ends. -/
theorem mangledId_in {auth : Auth} {state : Flag} :
    Triple World.step (In config kind) (mangledId config auth state)
      (fun id w => Phase.Mangles config state auth (auth.setAuthorisationId id.name) ∧
        In config kind w) (Follows config) := by
  unfold mangledId
  split
  · exact triple_ite (fun _ => sessionFault_in) fun _ => exit_in
  · rename_i name found
    split
    · exact exit_in
    · rename_i mangled made
      exact triple_pure fun w holds => ⟨⟨name, mangled, found, made, rfl⟩, holds⟩

/-- What a lookup keeps of the locals. -/
structure Looked (st st' : LoopState) : Prop where
  /-- The credentials are those of the client, but for the user name. -/
  auth : Phase.Locates st.auth st'.auth
  /-- The TLS state is the same. -/
  tlsState : st'.tlsState = st.tlsState
  /-- The tag is the same. -/
  ourTag : st'.ourTag = st.ourTag

theorem setAuthorisationId_twice (auth : Auth) (first second : CString) :
    (auth.setAuthorisationId first).setAuthorisationId second =
      auth.setAuthorisationId second := by
  unfold Auth.setAuthorisationId
  split <;> simp_all

theorem Looked.trans {first second third : LoopState} (before : Looked first second)
    (after : Looked second third) : Looked first third := by
  refine ⟨?_, after.tlsState.trans before.tlsState, after.ourTag.trans before.ourTag⟩
  rcases after.auth with same | ⟨name, set⟩
  · rw [same]
    exact before.auth
  · refine .inr ⟨name, ?_⟩
    rcases before.auth with same | ⟨name', set'⟩
    · rw [set, same]
    · rw [set, set', setAuthorisationId_twice]

theorem lookUp_in :
    Triple World.step (In config kind) (lookUp config st)
      (fun st' w => Looked st st' ∧ In config kind w) (Follows config) := by
  refine triple_bind mangledId_in fun id => triple_fact fun _ => ?_
  refine triple_bind map_in fun map => ?_
  refine triple_ite (fun _ => triple_pure fun w holds => ⟨⟨.inl rfl, rfl, rfl⟩, holds⟩) fun _ => ?_
  split
  · exact sessionFault_in
  · refine triple_pure fun w holds => ⟨⟨?_, rfl, rfl⟩, holds⟩
    dsimp only
    split
    · exact .inr ⟨_, rfl⟩
    · exact .inl rfl

theorem useEntry_looked (config : Config) (st : LoopState) : Looked st (useEntry config st) := by
  unfold useEntry
  split
  · exact ⟨.inl rfl, rfl, rfl⟩
  · dsimp only
    split
    · split
      · exact ⟨.inr ⟨_, rfl⟩, rfl, rfl⟩
      · exact ⟨.inl rfl, rfl, rfl⟩
    · exact ⟨.inl rfl, rfl, rfl⟩

theorem useDefaults_looked (config : Config) (st : LoopState) :
    Looked st (useDefaults config st) := by
  unfold useDefaults
  dsimp only
  split <;> split <;> exact ⟨.inl rfl, rfl, rfl⟩

theorem writeServerResp_in (answers : ∀ p, kind p → p.stage.answers) (capture : Option Capture) :
    Triple World.step (In config kind) (writeServerResp config st capture)
      (fun st' w => st'.ourTag = st.ourTag ∧ In config kind w) (Follows config) := by
  unfold writeServerResp
  split
  · exact sessionFault_in
  · refine triple_bind (answer_in (Protocol.writeStr_writing _ _ _ _ _) answers) fun status => ?_
    refine triple_ite (fun _ => ?_) fun _ => ?_
    · exact triple_mono exit_in (fun w holds => holds.2) (fun _ _ => id) fun _ => id
    · exact triple_pure fun w holds => ⟨rfl, holds.2⟩

/-- The credentials are being sent. -/
def Sending (p : Phase) : Prop := p.stage = .authenticating

theorem Sending.answers {p : Phase} (sending : Sending p) : p.stage.answers :=
  congrArg Stage.answers sending

theorem Sending.fails {p : Phase} (sending : Sending p) : p.stage.fails :=
  congrArg Stage.fails sending

theorem Sending.reads {p : Phase} (sending : Sending p) : p.stage.reads = some .server :=
  congrArg Stage.reads sending

theorem loggedIn_attempts (st : LoopState) :
    Attempts config Sending (do Session.note .loggedIn; return .inr st) := by
  refine triple_bind (note_in (fun _ => True) fun p unread known =>
    ⟨{ p with stage := .left }, .loggedIn known, rfl, rfl, .inr rfl, trivial⟩) fun _ => ?_
  exact triple_pure fun w holds => holds.follows

theorem finish_attempts {result : OutAuth} (ours : OurTag result.tag) :
    Attempts config Sending (finish config st result) := by
  unfold finish
  refine triple_ite (fun _ => ?refused) fun _ => triple_ite (fun _ => ?disabled) fun _ =>
    triple_ite (fun _ => ?unavailable) fun _ => triple_ite (fun _ => exit_in) fun _ =>
    triple_ite (fun _ => ?response) fun _ => ?ok
  case refused =>
    refine triple_bind (exchange_in (config.protocol.quit_sending ours) (fun _ => Sending.reads)
      (fun _ => Sending.answers) (fun _ _ => id) fun p id content ok known server _ =>
        .sent known server) fun ourTag => triple_fact fun ours => ?_
    refine triple_ite (fun _ => ?_) fun _ =>
      failAttempt_attempts (fun _ => Sending.fails) (fun _ => Sending.answers) ours _
    refine triple_bind (writeServerResp_in (fun _ => Sending.answers) _) fun st' =>
      triple_fact fun same => cleanUpMain_attempts (fun _ => Sending.fails) (same ▸ ours)
  case disabled =>
    exact failAttempt_attempts (fun _ => Sending.fails) (fun _ => Sending.answers) ours _
  case unavailable =>
    exact failAttempt_attempts (fun _ => Sending.fails) (fun _ => Sending.answers) ours _
  case response =>
    exact triple_bind (writeServerResp_in (fun _ => Sending.answers) _) fun st' =>
      triple_fact fun _ => loggedIn_attempts st'
  case ok =>
    refine triple_bind (answer_in (Protocol.writeStr_writing _ _ _ _ _) fun _ => Sending.answers)
      fun status => triple_fact fun _ => ?_
    exact triple_ite (fun _ => exit_in) fun _ => loggedIn_attempts _

/-- The set-up of the real server for some credentials. -/
abbrev SettingUp (auth : Auth) : Phase → Prop := Holding .settingUp auth

theorem authenticateServer_attempts {base auth : Auth} {status : Int}
    (turn : ∀ p, kind p →
      p.stage = .secured ∨ p.stage = .settingUp ∧ Phase.outgoingForced config = false)
    (holds : ∀ p, kind p → p.auth = base)
    (mangled : Phase.Mangles config stateRemoteLogin base auth) (ours : OurTag st.ourTag) :
    Attempts config kind (authenticateServer config st auth status) := by
  refine triple_bind (flush_in (Holding .flushed base) fun p known =>
    ⟨{ p with stage := .flushed, source := none }, .flushedServer (turn p known), rfl, rfl, rfl,
      holds p known⟩) fun _ => ?_
  refine triple_bind (note_in Sending fun p unread known =>
    ⟨{ p with stage := .authenticating }, .outAuthenticate known.1 (known.2 ▸ mangled), rfl, rfl,
      .inr rfl, rfl⟩) fun _ => ?_
  refine triple_bind (exchange_in (config.protocol.outAuthenticate_sending _ _ _ _ _ ours)
    (fun _ => Sending.reads) (fun _ => Sending.answers) (fun _ _ => id)
    fun p id content ok known server _ => .sent known server) fun result => ?_
  exact triple_fact fun ours => finish_attempts ours

theorem quitAttempt_attempts {base : Auth} (ours : OurTag st.ourTag) (reason : CString) :
    Attempts config (SettingUp base) (quitAttempt config st reason) := by
  refine triple_bind (exchange_in (config.protocol.quit_sending ours)
    (fun p known => congrArg Stage.reads known.1) (fun p known => congrArg Stage.answers known.1)
    (fun _ _ => id) fun p id content ok known server line => .setUp known.1 server line)
    fun ourTag => triple_fact fun ours => ?_
  exact failAttempt_attempts (fun p known => congrArg Stage.fails known.1)
    (fun p known => congrArg Stage.answers known.1) ours reason

theorem secureServer_attempts {base auth : Auth} {status : Int}
    (mangled : Phase.Mangles config stateRemoteLogin base auth) (ours : OurTag st.ourTag) :
    Attempts config (SettingUp base) (secureServer config st auth status) := by
  unfold secureServer
  refine triple_ite (fun _ => quitAttempt_attempts ours _) fun _ =>
    triple_ite (fun _ => exit_in) fun _ => triple_ite (fun _ => ?starttls) fun noStarttls =>
    triple_ite (fun _ => quitAttempt_attempts ours _) fun notForced => ?plain
  case starttls =>
    refine triple_bind (sslClient_in (Holding .secured base)
      (fun p id known server => .serverFailed (.inr known.1) server)
      fun p id unread known server => ⟨{ p with stage := .secured, server := some id.secured },
        .secured known.1 server, rfl, rfl, rfl, rfl, known.2⟩) fun secured => ?_
    cases secured with
    | false => exact exit_in
    | true =>
      exact authenticateServer_attempts (fun p known => .inl known.1) (fun p known => known.2)
        mangled ours
  case plain =>
    have free : Phase.outgoingForced config = false := by
      simp only [Phase.outgoingForced, Bool.and_eq_false_iff]
      grind
    exact authenticateServer_attempts (fun p known => .inr ⟨known.1, free⟩)
      (fun p known => known.2) mangled ours

theorem setUpServer_attempts {base : Auth} (same : st.auth = base) (ours : OurTag st.ourTag) :
    Attempts config (Holding .connected base) (setUpServer config st) := by
  refine triple_bind mangledId_in fun id => triple_fact fun mangled => ?_
  refine triple_bind (note_in (SettingUp base) fun p unread known =>
    ⟨{ p with stage := .settingUp }, .outSetup known.1, rfl, rfl, .inr rfl, rfl, known.2⟩)
    fun _ => ?_
  refine triple_bind (exchange_in (config.protocol.outSetup_sending _ _ ours)
    (fun p known => congrArg Stage.reads known.1) (fun p known => congrArg Stage.answers known.1)
    (fun _ _ known => known) fun p id content ok known server line => .setUp known.1 server line)
    fun result => triple_fact fun ours => ?_
  exact secureServer_attempts (same ▸ mangled) ours

theorem dialServer_attempts {base : Auth} {server : CString}
    (admits : ∀ p, kind p → Phase.Admits config p) (holds : ∀ p, kind p → p.auth = base)
    (same : st.auth = base) (ours : OurTag st.ourTag) :
    Attempts config kind (dialServer config st server) := by
  refine triple_bind (clientOpen_in (Holding .connected base) admits
    fun p id known => ⟨rfl, holds p known⟩) fun opened => ?_
  cases opened with
  | false =>
    exact failAttempt_attempts (fun p known => congrArg Stage.fails known)
      (fun p known => congrArg Stage.answers known) ours _
  | true =>
    refine triple_ite (fun failed => absurd failed (by decide)) fun _ =>
      triple_ite (fun _ => ?_) fun _ => setUpServer_attempts same ours
    refine triple_bind (sslClient_in (Holding .connected base)
      (fun p id known server => .serverFailed (.inl known.1) server)
      fun p id unread known server => ⟨{ p with server := some id.secured },
        .dialled known.1 server, rfl, rfl, rfl, known⟩) fun secured => ?_
    cases secured with
    | false => exact exit_in
    | true => exact setUpServer_attempts same ours

theorem inAuthenticate_in {protocol : Protocol} {base auth : Auth} {tag : Option Token}
    (wanted : config.opt.authenticateIn) :
    Triple World.step (In config (Holding .located base)) (protocol.inAuthenticate auth tag)
      (fun status w => (status < 0 ∨ status = 0 ∨ status = 1) ∧
        In config (Holding .located base) w) (Follows config) := by
  have pam (user : Option CString) (reason : CString) :
      Triple World.step (In config (Holding .located base)) (do
        if !(← Session.perform (.pamStart user)) then return -1
        else if !(← Session.perform (.pamAuthenticate auth.getAuthorisationId auth.passwd)) then
          if (← Session.client (protocol.writeStr nullFlag tag (some (protocol.type .no))
              (some reason))) < 0 then return -1
          else return 0
        else return 1 : Session Int) (fun status w => (status < 0 ∨ status = 0 ∨ status = 1) ∧
        In config (Holding .located base) w) (Follows config) := by
    refine triple_bind (pamStart_in (fun p known => known.1) wanted) fun started => ?_
    refine triple_ite (fun _ => triple_pure fun w holds => ⟨by omega, holds⟩) fun _ => ?_
    refine triple_bind (pamAuthenticate_in (fun p known => known.1) wanted) fun known => ?_
    refine triple_ite (fun _ => ?_) fun _ => triple_pure fun w holds => ⟨by omega, holds⟩
    refine triple_bind (answer_in (Protocol.writeStr_writing _ _ _ _ _)
      fun p known => congrArg Stage.answers known.1) fun status => triple_fact fun _ => ?_
    exact triple_ite (fun _ => triple_pure fun w holds => ⟨by omega, holds⟩) fun _ =>
      triple_pure fun w holds => ⟨by omega, holds⟩
  cases protocol with
  | pop3 => exact pam _ _
  | imap4 => exact pam _ _
  | managesieve => exact triple_pure fun w holds => ⟨by omega, holds⟩

theorem authenticateLocally_attempts {base : Auth} {server : CString} (same : st.auth = base)
    (ours : OurTag st.ourTag) :
    Attempts config (Holding .located base) (authenticateLocally config st server) := by
  refine triple_ite (fun wanted => ?_) fun unwanted =>
    dialServer_attempts (fun p known => .inr ⟨known.1, by simpa using unwanted⟩)
      (fun p known => known.2) same ours
  refine triple_bind mangledId_in fun id => triple_fact fun mangled => ?_
  refine triple_bind (inAuthenticate_in wanted) fun status => triple_fact fun range => ?_
  refine triple_bind (note_in (Holding (if status = 1 then .admitted else .failing) base)
    fun p unread known => ⟨{ p with stage := if status = 1 then .admitted else .failing },
      .inAuthenticated known.1 wanted (known.2 ▸ same ▸ mangled), rfl, rfl, .inr rfl, rfl,
      known.2⟩) fun _ => ?_
  refine triple_ite (fun zero => ?_) fun nonzero => triple_ite (fun _ => exit_in) fun positive => ?_
  · exact cleanUpMain_attempts (fun p known => by simp [known.1, zero, Stage.fails]) ours
  · have one : status = 1 := by omega
    exact dialServer_attempts (fun p known => .inl (by simp [known.1, one]))
      (fun p known => known.2) same ours

theorem locateServer_attempts (ours : OurTag st.ourTag) :
    Attempts config (Holding .tested st.auth) (locateServer config st) := by
  refine triple_bind lookUp_in fun st' => triple_fact fun looked => ?_
  have kept := (looked.trans (useEntry_looked config st')).trans
    (useDefaults_looked config (useEntry config st'))
  generalize useDefaults config (useEntry config st') = st'' at kept
  have ours' : OurTag st''.ourTag := kept.ourTag ▸ ours
  have failed (reason : CString) : Attempts config (Holding .tested st.auth)
      (failAttempt config st'' reason) :=
    failAttempt_attempts (fun p known => congrArg Stage.fails known.1)
      (fun p known => congrArg Stage.answers known.1) ours' reason
  dsimp only
  split
  · exact failed _
  · refine triple_ite (fun _ => failed _) fun _ => ?_
    refine triple_bind (note_in (Holding .located st''.auth) fun p unread known =>
      ⟨{ p with stage := .located, auth := st''.auth },
        .located known.1 (known.2 ▸ kept.auth), rfl, rfl, .inr rfl, rfl, rfl⟩) fun _ => ?_
    exact authenticateLocally_attempts rfl ours'

theorem dispatch_attempts (st : LoopState) {status : Int}
    (range : status < 0 ∨ status = 0 ∨ status = 1 ∨ status = 2)
    (listen : status = 2 → config.opt.sslMode.has sslModeTlsListen) (ours : OurTag st.ourTag) :
    Attempts config (fun p => Standing (.returned status) st.tlsState p ∧ p.auth = st.auth)
      (dispatch config st status) := by
  refine triple_ite (fun _ => exit_in) fun _ => triple_ite (fun _ => exit_in) fun _ =>
    triple_ite (fun two => ?starttls) fun others => ?login
  case starttls =>
    refine triple_bind (sslServer_in (Standing .upgraded st.tlsState)
      (fun p known => .clientFailed (.inr (two.1 ▸ known.1.1)))
      fun p unread known => ⟨{ p with stage := .upgraded, client := p.client.secured },
        .accepted (two.1 ▸ known.1.1), rfl, rfl, rfl, rfl, known.1.2⟩) fun secured => ?_
    cases secured with
    | false => exact exit_in
    | true =>
      refine triple_bind (note_in (Standing .idle (st.tlsState ||| sslModeTlsListen))
        fun p unread known => ⟨{ p with
          stage := .idle, tlsState := p.tlsState ||| sslModeTlsListen }, .starttls known.1, rfl,
          rfl, .inr rfl, rfl, by simp [known.2]⟩) fun _ => ?_
      exact triple_pure fun w holds => ⟨ours, holds⟩
  case login =>
    have zero : status = 0 := by
      rcases range with _ | _ | _ | two
      · omega
      · assumption
      · omega
      · exact absurd ⟨two, listen two⟩ others
    refine triple_bind (note_in (Holding (if loginsDisabled config.opt 0 st.tlsState then .refused
      else .tested) st.auth) fun p unread known => ?_) fun _ => triple_ite (fun disabled => ?_)
      fun enabled => ?_
    · obtain ⟨⟨stage, tlsState⟩, auth⟩ := known
      rw [← tlsState]
      exact ⟨_, .loginDisabledTest (zero ▸ stage), rfl, rfl, .inr rfl, rfl, auth⟩
    · rw [zero] at disabled
      simp only [disabled, if_true]
      refine triple_bind (note_in (·.stage = .failing) fun p unread known =>
        ⟨{ p with stage := .failing }, .loginDisabled known.1, rfl, rfl, .inr rfl, rfl⟩)
        fun _ => ?_
      exact failAttempt_attempts (fun p known => congrArg Stage.fails known)
        (fun p known => congrArg Stage.answers known) ours _
    · rw [zero] at enabled
      simp only [enabled]
      exact locateServer_attempts ours

/-- Where an attempt may begin. -/
def Beginning (st : LoopState) (p : Phase) : Prop :=
  (p.stage = .starting ∨ p.stage = .idle) ∧ p.tlsState = st.tlsState

theorem attempt_attempts (ours : OurTag st.ourTag) :
    Attempts config (Beginning st) (attempt config st) := by
  refine triple_bind (note_in (Standing .reading st.tlsState) fun p unread known => ?_) fun _ => ?_
  · refine ⟨{ p with stage := .reading, source := if unread = [] then none else p.source },
      known.2 ▸ .inGetAuth known.1, rfl, rfl, ?_, rfl, known.2⟩
    by_cases empty : unread = []
    · exact .inl empty
    · exact .inr (if_neg empty)
  refine triple_bind (client_in (config.protocol.inGetAuth_valid _ _ _)
    (fun p known => congrArg Stage.reads known.1) (fun p known => congrArg Stage.answers known.1)
    fun _ _ known => known) fun result => triple_fact fun valid => ?_
  refine triple_bind (flush_in (Standing .read st.tlsState) fun p known =>
    ⟨{ p with stage := .read, source := none }, .flushedClient known.1, rfl, rfl, rfl, known.2⟩)
    fun _ => ?_
  refine triple_bind (note_in (fun p => Standing (.returned result.status) st.tlsState p ∧
    p.auth = result.auth.getD st.auth) fun p unread known =>
    ⟨{ p with stage := .returned result.status, auth := result.auth.getD st.auth },
      .gotAuth known.1, rfl, rfl, .inr rfl, ⟨rfl, known.2⟩, rfl⟩) fun _ => ?_
  have rest : Attempts config _ _ := dispatch_attempts { st with
    auth := result.auth.getD st.auth
    clientTag := if result.tag.isSome then result.tag else st.clientTag }
    valid.range valid.listen ours
  exact rest

theorem authenticationLoop_follows :
    Triple World.step (In config (Beginning (LoopState.start config)))
      (authenticationLoop config) (fun _ => Follows config) (Follows config) := by
  have loop : Triple World.step
      (fun w => OurTag (LoopState.start config).ourTag ∧
        In config (Beginning (LoopState.start config)) w)
      (authenticationLoop config) (fun _ => Follows config) (Follows config) := by
    refine triple_loop (fun st w => OurTag st.ourTag ∧ In config (Beginning st) w) (fun st => ?_)
      fun st w holds => holds.2.follows
    refine triple_fact fun ours => triple_mono (attempt_attempts ours) (fun _ => id) ?_ fun _ => id
    intro r w left
    cases r with
    | inl again => exact ⟨left.1, left.2.mono fun p known => ⟨.inr known.1, known.2⟩⟩
    | inr final => exact left
  exact triple_mono loop (fun w holds => ⟨.create, holds⟩) (fun _ _ => id) fun _ => id

end Functions

/-- A session that is being accepted. -/
def Accepting (p : Phase) : Prop := Standing .starting sslModeEmpty p

theorem main_triple (config : Config) :
    Triple World.step (In config Accepting) (main config) (fun _ => Follows config)
      (Follows config) := by
  have greeted : Triple World.step (In config Accepting)
      (do
        if (← Session.client (config.protocol.greeting config.opt config.platform)) < 0 then
          Session.exit (-1)
        else authenticationLoop config) (fun _ => Follows config) (Follows config) := by
    refine triple_bind (answer_in (config.protocol.greeting_writing _ _)
      fun p known => congrArg Stage.answers known.1) fun status => triple_fact fun _ => ?_
    refine triple_ite (fun _ => exit_in) fun _ => ?_
    exact triple_mono authenticationLoop_follows
      (fun w holds => holds.mono fun p known => ⟨.inl known.1, known.2⟩) (fun _ _ => id) fun _ => id
  refine triple_ite (fun _ => ?_) fun _ => ?_
  · refine triple_bind (sslServer_in Accepting (fun p known => .clientFailed (.inl known.1))
      fun p unread known => ⟨{ p with client := p.client.secured }, .listened known.1, rfl, rfl,
        rfl, known⟩) fun secured => ?_
    cases secured with
    | false => exact exit_in
    | true => exact greeted
  · have plain : Triple World.step (In config Accepting) (pure true : Session Bool)
        (fun secured w => secured = true ∧ In config Accepting w) (Follows config) :=
      triple_pure fun w holds => ⟨rfl, holds⟩
    refine triple_bind plain fun secured => triple_fact fun yes => ?_
    cases yes
    exact greeted

/-- The events of every run of `main` are the labels of a path of the session. -/
theorem main_follows (config : Config) (fuel : Nat) (w : World) (fresh : w.Fresh) :
    Follows config (Session.run (main config) fuel w).state := by
  have begun : In config Accepting w := by
    refine ⟨Phase.start, ⟨?_, fresh.client, ?_, .inl fresh.unread⟩, rfl, rfl⟩
    · rw [fresh.trace]
      exact .none
    · rw [fresh.server]
      rfl
  exact Outcome.meets_iff_state.mp (main_triple config fuel w begun)

end Perdition
