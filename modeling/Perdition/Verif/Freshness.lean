import Perdition.Verif.Refinement
import Perdition.Verif.Tags

/-!
# Freshness of tags in a session

The commands of a whole session, to all real servers it tries, have different tags where each CAPABILITY
command is answered and the tags have not got to the upper case letters.
-/
namespace Perdition

open Lib Program

/-! ## What an operation does to the log -/

/-- What is known of the log, of a session with a client. -/
structure Said (holds : Log → Prop) (w : World) : Prop where
  /-- The connection of the client. -/
  client : w.client.id.party = .client
  /-- What is known. -/
  log : holds w.log

/-- A real server is connected, too. -/
structure Linked (holds : Log → Prop) (w : World) : Prop extends Said holds w where
  /-- The connection of the real server. -/
  server : ∃ conn, w.server = some conn ∧ conn.id.party = .server

/-- Telling the client something changes nothing. -/
def Untold (holds : Log → Prop) : Prop := ∀ log content ok, holds log → holds (log.tell content ok)

/-- Operations that leave the real server alone. -/
def aside : Contract SessionSig where
  allowed
    | .io .server _ => False
    | .sslClientConnection => False
    | .clientOpen _ _ => False
    | .closeServer => False
    | _ => True
  returns _ _ := True

theorem World.log_record (w : World) (events : List Event) :
    (w.record events).log = events.foldl Log.add w.log := by
  rw [World.log, World.record, List.foldl_append]
  rfl

/-- An event that is neither said nor heard leaves the log as it is. -/
theorem World.log_silent (w : World) (event : Event) (silent : ∀ log, Log.add log event = log) :
    (w.record [event]).log = w.log := by
  rw [World.log_record, List.foldl_cons, List.foldl_nil, silent]

/-- A world that differs in what the client did and was told. -/
structure Beside (w w' : World) : Prop where
  /-- The party. -/
  client : w'.client.id.party = w.client.id.party
  /-- The real server. -/
  server : w'.server = w.server
  /-- The log. -/
  log : w'.log = w.log ∨ ∃ content ok, w'.log = w.log.tell content ok

theorem io_beside (op : IoOp) {w : World} (client : w.client.id.party = .client) :
    Beside w (w.io .client op).state := by
  cases op with
  | nextByte =>
    refine ⟨?_, rfl, .inl ?_⟩
    · change ((Channel.nextByte ⟨w.client, w.unread, w.source, w.stale⟩).2.conn.id).party = _
      rw [(Channel.nextByte_spec _).1]
    · change ((w.putChannel .client _).record _).log = _
      rw [World.log_record]
      change List.foldl Log.add w.log _ = _
      cases (Channel.nextByte ⟨w.client, w.unread, w.source, w.stale⟩).1 with
      | none => simp [ioEvents, Log.add, client]
      | some b => simp [ioEvents, Log.add, client]
  | write content =>
    refine ⟨?_, rfl, .inr ⟨content, w.client.write.1, ?_⟩⟩
    · change (w.client.write.2.id).party = _
      rw [Connection.write_id]
    · change ((w.putChannel .client _).record _).log = _
      rw [World.log_record]
      change Log.add w.log (.wrote w.client.id content _) = _
      simp only [Log.add, client]
  | getType => exact ⟨rfl, rfl, .inl (by
      change ((w.putChannel .client _).record _).log = _
      rw [World.log_record]; rfl)⟩
  | stale count => exact ⟨rfl, rfl, .inl (by
      change ((w.putChannel .client _).record _).log = _
      rw [World.log_record]; rfl)⟩
  | fault why => exact ⟨rfl, rfl, .inl rfl⟩

theorem step_beside {op : SessionOp} (allowed : aside.allowed op) {w : World}
    (client : w.client.id.party = .client) : Beside w (World.step op w).state := by
  cases op with
  | io party op =>
    cases party with
    | client => exact io_beside op client
    | server => exact allowed.elim
  | tokenFlush => exact ⟨rfl, rfl, .inl (World.log_silent _ _ fun _ => rfl)⟩
  | sslServerConnection =>
    change Beside w w.sslServerConnection.2
    unfold World.sslServerConnection
    cases upgraded : w.client.upgrade with
    | none => exact ⟨rfl, rfl, .inl (World.log_silent _ _ fun _ => rfl)⟩
    | some conn =>
      refine ⟨?_, rfl, .inl (World.log_silent _ _ fun _ => rfl)⟩
      change conn.id.party = _
      rw [Connection.upgrade_id upgraded]
      rfl
  | sslClientConnection => exact allowed.elim
  | clientOpen server port => exact allowed.elim
  | closeServer => exact allowed.elim
  | map => exact ⟨rfl, rfl, .inl rfl⟩
  | pamStart user =>
    have same : w.nextPam.2.client = w.client ∧ w.nextPam.2.server = w.server ∧
        w.nextPam.2.log = w.log := by
      unfold World.nextPam
      split <;> exact ⟨rfl, rfl, rfl⟩
    exact ⟨congrArg (fun conn : Connection => conn.id.party) same.1, same.2.1,
      .inl ((World.log_silent _ _ fun _ => rfl).trans same.2.2)⟩
  | pamAuthenticate user passwd =>
    have same : w.nextPam.2.client = w.client ∧ w.nextPam.2.server = w.server ∧
        w.nextPam.2.log = w.log := by
      unfold World.nextPam
      split <;> exact ⟨rfl, rfl, rfl⟩
    exact ⟨congrArg (fun conn : Connection => conn.id.party) same.1, same.2.1,
      .inl ((World.log_silent _ _ fun _ => rfl).trans same.2.2)⟩
  | exit status => exact ⟨rfl, rfl, .inl rfl⟩
  | note what => exact ⟨rfl, rfl, .inl (World.log_silent _ _ fun _ => rfl)⟩

section Steps

variable {holds : Log → Prop} {w w' : World}

theorem Said.beside (untold : Untold holds) (said : Said holds w) (beside : Beside w w') :
    Said holds w' := by
  refine ⟨beside.client.trans said.client, ?_⟩
  rcases beside.log with same | ⟨content, ok, same⟩
  · rw [same]
    exact said.log
  · rw [same]
    exact untold _ _ _ said.log

theorem Linked.beside (untold : Untold holds) (linked : Linked holds w) (beside : Beside w w') :
    Linked holds w' :=
  ⟨linked.toSaid.beside untold beside, beside.server ▸ linked.server⟩

/-- What leaves the real server alone keeps what is known. -/
theorem aside_said {α : Type} {program : Session α} {result : α → Prop} (untold : Untold holds)
    (obeys : program.Obeys aside result) :
    Triple World.step (Said holds) program (fun a w => result a ∧ Said holds w) (Said holds) :=
  triple_of_obeys obeys (fun op allowed w said => by
    have kept := said.beside untold (step_beside allowed said.client)
    exact (Outcome.meets_iff_state.mpr kept).mono (fun _ _ said => ⟨trivial, said⟩) fun _ => id)
    fun _ => id

theorem aside_linked {α : Type} {program : Session α} {result : α → Prop} (untold : Untold holds)
    (obeys : program.Obeys aside result) :
    Triple World.step (Linked holds) program (fun a w => result a ∧ Linked holds w) (Said holds) :=
  triple_mono (triple_of_obeys obeys (fun op allowed w linked => by
    have kept := linked.beside untold (step_beside allowed linked.client)
    exact (Outcome.meets_iff_state.mpr kept).mono (fun _ _ linked => ⟨trivial, linked⟩) fun _ => id)
    fun _ => id) (fun _ => id) (fun _ _ => id) fun _ linked => linked.toSaid

end Steps

/-! ## What is known does not depend on what the client is told -/

section Untold

variable {buffered : Bool} {n more : Nat}

theorem counted_untold : Untold (Counted buffered more n) :=
  fun _ _ _ counted kept => counted kept.untold

theorem pending_untold : Untold (Pending buffered n) :=
  fun _ _ _ pending settled kept => pending settled kept.untold

theorem spoken_untold : Untold (Spoken buffered) := fun _ _ _ spoken kept => spoken kept.untold

/-- Between `out_setup` and the next command. -/
def Ready (buffered : Bool) (n : Nat) (log : Log) : Prop := Spoken buffered log ∧ Pending buffered n log

theorem ready_untold : Untold (Ready buffered n) :=
  fun log content ok ready =>
    ⟨spoken_untold log content ok ready.1, pending_untold log content ok ready.2⟩

theorem Counted.ready {log : Log} (counted : Counted buffered 0 n log) : Ready buffered n log :=
  ⟨counted.spoken, counted.pending⟩

theorem Said.mono {holds holds' : Log → Prop} {w : World} (said : Said holds w)
    (weaker : ∀ log, holds log → holds' log) : Said holds' w :=
  ⟨said.client, weaker _ said.log⟩

theorem Linked.mono {holds holds' : Log → Prop} {w : World} (linked : Linked holds w)
    (weaker : ∀ log, holds log → holds' log) : Linked holds' w :=
  ⟨linked.toSaid.mono weaker, linked.server⟩

end Untold

/-! ## Parts of the session -/

/-- A dialogue with the client leaves the real server alone. -/
theorem client_aside {α : Type} (dialogue : Dialogue α) :
    (Session.client dialogue).Obeys aside fun _ => True :=
  obeys_interpret (obeys_any dialogue) fun _ _ => ⟨trivial, fun _ _ => trivial⟩

theorem exit_aside {α : Type} (status : Int) {result : α → Prop} :
    (Session.exit status : Session α).Obeys aside result := ⟨trivial, fun never _ => nomatch never⟩

theorem fault_aside {α : Type} (why : Fault) {result : α → Prop} :
    (Session.fault why : Session α).Obeys aside result := ⟨trivial, fun never _ => nomatch never⟩

theorem mangledId_aside (config : Config) (auth : Auth) (state : Flag) :
    (mangledId config auth state).Obeys aside fun _ => True := by
  unfold mangledId
  split
  · exact obeys_ite (fun _ => fault_aside _) fun _ => exit_aside _
  · split
    · exact exit_aside _
    · trivial

theorem lookUp_aside (config : Config) (st : LoopState) :
    (lookUp config st).Obeys aside fun st' => st'.ourTag = st.ourTag := by
  refine obeys_then (mangledId_aside config _ _) fun id => obeys_step trivial fun map _ => ?_
  refine obeys_ite (fun _ => rfl) fun _ => ?_
  split
  · exact fault_aside _
  · rfl

theorem loginFailedProtocol_aside (config : Config) (st : LoopState) (reason : CString) :
    (loginFailedProtocol config st reason).Obeys aside fun _ => True :=
  obeys_then (client_aside _) fun _ => obeys_ite (fun _ => exit_aside _) fun _ => trivial

theorem writeServerResp_aside (config : Config) (st : LoopState) (capture : Option Capture) :
    (writeServerResp config st capture).Obeys aside fun st' => st'.ourTag = st.ourTag := by
  unfold writeServerResp
  split
  · exact fault_aside _
  · exact obeys_then (client_aside _) fun _ => obeys_ite (fun _ => exit_aside _) fun _ => rfl

theorem inAuthenticate_aside (protocol : Protocol) (auth : Auth) (tag : Option Token) :
    (protocol.inAuthenticate auth tag).Obeys aside fun _ => True := by
  have pam (user : Option CString) (reason : CString) : (do
      if !(← Session.perform (.pamStart user)) then return -1
      else if !(← Session.perform (.pamAuthenticate auth.getAuthorisationId auth.passwd)) then
        if (← Session.client (protocol.writeStr nullFlag tag (some (protocol.type .no))
            (some reason))) < 0 then return -1
        else return 0
      else return 1 : Session Int).Obeys aside fun _ => True := by
    refine obeys_step trivial fun started _ => obeys_ite (fun _ => trivial) fun _ => ?_
    refine obeys_step trivial fun known _ => obeys_ite (fun _ => ?_) fun _ => trivial
    exact obeys_then (client_aside _) fun _ => obeys_ite (fun _ => trivial) fun _ => trivial
  cases protocol with
  | pop3 => exact pam _ _
  | imap4 => exact pam _ _
  | managesieve => trivial

/-- An exchange with the real server does to the log what it does in a talk. -/
theorem exchange_linked {α : Type} {exchange : Exchange α} {line : List Byte → Prop}
    {result : α → Prop} {before stopped : Log → Prop} {after : α → Log → Prop}
    (sends : exchange.Obeys (sending line) result)
    (talk : Triple Talk.step (fun t => before t.log) exchange (fun a t => after a t.log)
      fun t => stopped t.log) :
    Triple World.step (Linked before) (Session.exchange exchange) (fun a w => Linked (after a) w)
      (Said stopped) := by
  intro fuel w linked
  have ⟨conn, connected, party⟩ := linked.server
  have talks : w.Talks 0 (w.talk 0 conn) :=
    ⟨⟨conn, connected, party, rfl⟩, linked.client, Nat.zero_le _⟩
  have met := talk fuel (w.talk 0 conn) linked.log
  have related := run_talk sends 0 fuel talks
  have seen {w' : World} {t' : Talk} (talks : w'.Talks 0 t') : w'.log = t'.log := by
    have ⟨conn', _, _, same⟩ := talks.server
    rw [← same]
    rfl
  rw [run_sessionExchange]
  generalize Program.run exchangeStep fuel exchange w = outcome at related
  generalize Program.run Talk.step fuel exchange (w.talk 0 conn) = outcome' at related met
  cases related with
  | escape gone => exact gone.elim
  | done holds =>
    have ⟨conn', connected', party', _⟩ := holds.server
    exact ⟨⟨holds.client, seen holds ▸ met⟩, conn', connected', party'⟩
  | halted holds => exact ⟨holds.client, seen holds ▸ met⟩
  | looping holds => exact ⟨holds.client, seen holds ▸ met⟩

/-! ## Attempts -/

/-- The lines of an answer are stored in a buffer. -/
def Config.buffers (config : Config) : Bool :=
  config.opt.sslMode.has sslModeTlsOutgoing || config.opt.serverRespLine

/-- What an attempt leaves: the next tag is known, or the loop is left. -/
def Advanced (buffered : Bool) : LoopState ⊕ LoopState → World → Prop
  | .inl st, w => ∃ n, st.ourTag = ourTag n ∧ Said (Counted buffered 0 n) w
  | .inr _, w => Said (Spoken buffered) w

/-- The attempt keeps count of the tags. -/
def Advances (buffered : Bool) (before : World → Prop) (program : Attempt) : Prop :=
  Triple World.step before program (Advanced buffered) (Said (Spoken buffered))

section Attempts

variable {buffered : Bool} {n : Nat} {holds : Log → Prop} {st : LoopState}

/-- What leaves the real server alone comes before the rest of an attempt. -/
theorem advances_aside {β : Type} {first : Session β} {rest : β → Attempt} {result : β → Prop}
    (untold : Untold holds) (spoken : ∀ log, holds log → Spoken buffered log)
    (obeys : first.Obeys aside result)
    (finish : ∀ b, result b → Advances buffered (Said holds) (rest b)) :
    Advances buffered (Said holds) (first >>= rest) :=
  triple_bind (triple_mono (aside_said untold obeys) (fun _ => id) (fun _ _ => id)
    fun _ said => said.mono spoken) fun b => triple_fact (finish b)

/-- So it does where the real server is connected. -/
theorem advances_beside {β : Type} {first : Session β} {rest : β → Attempt} {result : β → Prop}
    (untold : Untold holds) (spoken : ∀ log, holds log → Spoken buffered log)
    (obeys : first.Obeys aside result)
    (finish : ∀ b, result b → Advances buffered (Linked holds) (rest b)) :
    Advances buffered (Linked holds) (first >>= rest) :=
  triple_bind (triple_mono (aside_linked untold obeys) (fun _ => id) (fun _ _ => id)
    fun _ said => said.mono spoken) fun b => triple_fact (finish b)

/-- A session that ends has sent what it has sent. -/
theorem exit_advances {before : World → Prop} (status : Int)
    (spoken : ∀ w, before w → Said (Spoken buffered) w) :
    Advances buffered before (Session.exit status) := fun _ w given => spoken w given

theorem Linked.said {w : World} (linked : Linked holds w) : Said holds w := linked.toSaid

theorem cleanUpMain_advances (tag : st.ourTag = ourTag n) :
    Advances buffered (Said (Counted buffered 0 n)) (cleanUpMain st) := by
  refine advances_aside counted_untold (fun _ => Counted.spoken)
    (show (Session.note .cleanUp).Obeys aside fun _ => True from ⟨trivial, fun _ _ => trivial⟩)
    fun _ _ => ?_
  have closed : Triple World.step (Said (Counted buffered 0 n)) (Session.perform .closeServer)
      (fun _ => Said (Counted buffered 0 n)) (Said (Spoken buffered)) := by
    intro fuel w said
    change Said _ w.closeServer
    unfold World.closeServer
    cases w.server with
    | none => exact said
    | some conn =>
      refine ⟨said.client, ?_⟩
      rw [World.log_silent _ _ fun _ => rfl]
      exact said.log
  exact triple_bind closed fun _ => triple_pure fun w said => ⟨n, tag, said⟩

theorem failAttempt_advances (config : Config) (reason : CString) (tag : st.ourTag = ourTag n) :
    Advances buffered (Said (Counted buffered 0 n)) (failAttempt config st reason) :=
  advances_aside counted_untold (fun _ => Counted.spoken) (loginFailedProtocol_aside _ _ _)
    fun _ _ => cleanUpMain_advances tag

/-- The loop is left. -/
theorem loggedIn_advances (st : LoopState) :
    Advances buffered (Said (Spoken buffered)) (do Session.note .loggedIn; return .inr st) :=
  advances_aside spoken_untold (fun _ => id)
    (show (Session.note .loggedIn).Obeys aside fun _ => True from ⟨trivial, fun _ _ => trivial⟩)
    fun _ _ => triple_pure fun _ => id

/-- `quit`, before the attempt ends. -/
theorem quit_advances (config : Config) (imap : config.protocol = .imap4) {rest : Token → Attempt}
    (finish : ∀ m, Advances buffered (Said (Counted buffered 0 m)) (rest (ourTag m))) :
    Advances buffered (Linked (Ready buffered n))
      (Session.exchange (config.protocol.quit (ourTag n)) >>= rest) := by
  rw [imap]
  have quit : Triple World.step (Linked (Ready buffered n))
      (Session.exchange (Protocol.imap4.quit (ourTag n)))
      (fun tag => Linked fun log => ∃ m, tag = ourTag m ∧ Counted buffered 0 m log)
      (Said (Spoken buffered)) :=
    exchange_linked (Protocol.quit_sending .imap4 (ourTag_ours n))
      (triple_mono quit_tags (fun _ ready => ready.2) (fun _ _ => id) fun _ => id)
  refine triple_bind quit fun tag => ?_
  intro fuel w linked
  have ⟨m, same, counted⟩ := linked.log
  subst same
  exact finish m fuel w ⟨linked.client, counted⟩

theorem finish_advances (config : Config) (imap : config.protocol = .imap4) (result : OutAuth) :
    Advances buffered (Linked fun log => Spoken buffered log ∧
        (0 ≤ result.status → ∃ m, result.tag = ourTag m ∧ Counted buffered 0 m log))
      (finish config st result) := by
  -- a status that is not negative comes with the next tag
  have counted {program : Attempt} (positive : 0 ≤ result.status)
      (rest : ∀ m, result.tag = ourTag m → Advances buffered (Linked (Counted buffered 0 m)) program) :
      Advances buffered (Linked fun log => Spoken buffered log ∧
        (0 ≤ result.status → ∃ m, result.tag = ourTag m ∧ Counted buffered 0 m log)) program := by
    intro fuel w linked
    have ⟨m, same, counted⟩ := linked.log.2 positive
    exact rest m same fuel w ⟨⟨linked.client, counted⟩, linked.server⟩
  have spoken : ∀ w, Linked (fun log => Spoken buffered log ∧
      (0 ≤ result.status → ∃ m, result.tag = ourTag m ∧ Counted buffered 0 m log)) w →
      Said (Spoken buffered) w := fun w linked => linked.said.mono fun _ => And.left
  have failed (reason : CString) {m : Nat} (same : result.tag = ourTag m) :
      Advances buffered (Linked (Counted buffered 0 m)) (failAttempt config
        { st with
          ourTag := result.tag
          serverRespBuf := (result.capture.map (·.buf)).getD st.serverRespBuf } reason) :=
    triple_mono (failAttempt_advances config reason same) (fun _ => Linked.said) (fun _ _ => id)
      fun _ => id
  have left {program : Attempt} (rest : Advances buffered (Said (Spoken buffered)) program) :
      Advances buffered (Linked fun log => Spoken buffered log ∧
        (0 ≤ result.status → ∃ m, result.tag = ourTag m ∧ Counted buffered 0 m log)) program :=
    triple_mono rest spoken (fun _ _ => id) fun _ => id
  unfold finish
  refine triple_ite (fun zero => ?refused) fun _ => triple_ite (fun two => ?disabled) fun _ =>
    triple_ite (fun three => ?unavailable) fun _ =>
    triple_ite (fun _ => exit_advances _ spoken) fun _ => triple_ite (fun _ => ?response) fun _ => ?ok
  case refused =>
    refine counted (by omega) fun m same => triple_mono ?_ (fun _ linked =>
      linked.mono fun _ => Counted.ready) (fun _ _ => id) fun _ => id
    dsimp only
    rw [same]
    refine quit_advances config imap fun k => triple_ite (fun _ => ?_) fun _ =>
      failAttempt_advances config _ rfl
    exact advances_aside counted_untold (fun _ => Counted.spoken) (writeServerResp_aside _ _ _)
      fun st' kept => cleanUpMain_advances kept
  case disabled => exact counted (by omega) fun m same => failed _ same
  case unavailable => exact counted (by omega) fun m same => failed _ same
  case response =>
    exact left (advances_aside spoken_untold (fun _ => id) (writeServerResp_aside _ _ _)
      fun st' _ => loggedIn_advances st')
  case ok =>
    exact left (advances_aside spoken_untold (fun _ => id) (client_aside _) fun status _ =>
      triple_ite (fun _ => exit_advances _ fun _ => id) fun _ => loggedIn_advances _)

theorem authenticateServer_advances (config : Config) (imap : config.protocol = .imap4)
    (st : LoopState) (tag : st.ourTag = ourTag n) (auth : Auth) (status : Int) :
    Advances config.buffers (Linked (Ready config.buffers n))
      (authenticateServer config st auth status) := by
  refine advances_beside ready_untold (fun _ => And.left)
    (show (Session.perform .tokenFlush).Obeys aside fun _ => True from ⟨trivial, fun _ _ => trivial⟩)
    fun _ _ => advances_beside ready_untold (fun _ => And.left)
      (show (Session.note _).Obeys aside fun _ => True from ⟨trivial, fun _ _ => trivial⟩) fun _ _ => ?_
  have buffer : Buffer config.buffers (respCapture config st) := by
    unfold respCapture
    split
    · rename_i kept
      rintro c ⟨⟩
      exact ⟨by simp [Config.buffers, kept], le_rfl⟩
    · simp [Buffer]
  dsimp only
  rw [imap, tag]
  have authenticate : Triple World.step (Linked (Ready config.buffers n))
      (Session.exchange (imap4OutAuthenticate auth (ourTag n) (respCapture config st)))
      (fun r => Linked fun log => Spoken config.buffers log ∧
        (0 ≤ r.status → ∃ m, r.tag = ourTag m ∧ Counted config.buffers 0 m log))
      (Said (Spoken config.buffers)) :=
    exchange_linked (imap4OutAuthenticate_sending auth _ (ourTag_ours n))
      (triple_mono (imap4OutAuthenticate_tags auth buffer) (fun _ ready => ready.2) (fun _ _ => id)
        fun _ => id)
  exact triple_bind authenticate fun result => finish_advances config imap result

theorem quitAttempt_advances (config : Config) (imap : config.protocol = .imap4)
    (tag : st.ourTag = ourTag n) (reason : CString) :
    Advances buffered (Linked (Ready buffered n)) (quitAttempt config st reason) := by
  unfold quitAttempt
  rw [tag]
  exact quit_advances config imap fun m => failAttempt_advances config reason rfl

/-- A handshake with the real server says nothing. -/
theorem sslClient_linked : Triple World.step (Linked holds)
    (Session.perform .sslClientConnection) (fun _ => Linked holds) (Said holds) := by
  intro fuel w linked
  have ⟨conn, connected, party⟩ := linked.server
  change Outcome.Meets _ _ w.sslClientConnection
  unfold World.sslClientConnection
  rw [connected]
  dsimp only
  cases upgraded : conn.upgrade with
  | none =>
    refine ⟨⟨linked.client, ?_⟩, conn, connected, party⟩
    rw [World.log_silent _ _ fun _ => rfl]
    exact linked.log
  | some conn' =>
    refine ⟨⟨linked.client, ?_⟩, conn', rfl, ?_⟩
    · rw [World.log_silent _ _ fun _ => rfl]
      exact linked.log
    · rw [Connection.upgrade_id upgraded]
      exact party

theorem secureServer_advances (config : Config) (imap : config.protocol = .imap4) (st : LoopState)
    (auth : Auth) (status : Int) :
    Advances config.buffers (Linked fun log => Spoken config.buffers log ∧
        (0 ≤ status → ∃ m, st.ourTag = ourTag m ∧ Pending config.buffers m log))
      (secureServer config st auth status) := by
  have spoken : ∀ w, Linked (fun log => Spoken config.buffers log ∧
      (0 ≤ status → ∃ m, st.ourTag = ourTag m ∧ Pending config.buffers m log)) w →
      Said (Spoken config.buffers) w := fun w linked => linked.said.mono fun _ => And.left
  have ready {program : Attempt} (positive : 0 ≤ status)
      (rest : ∀ m, st.ourTag = ourTag m →
        Advances config.buffers (Linked (Ready config.buffers m)) program) :
      Advances config.buffers (Linked fun log => Spoken config.buffers log ∧
        (0 ≤ status → ∃ m, st.ourTag = ourTag m ∧ Pending config.buffers m log)) program := by
    intro fuel w linked
    have ⟨m, same, pending⟩ := linked.log.2 positive
    exact rest m same fuel w ⟨⟨linked.client, linked.log.1, pending⟩, linked.server⟩
  unfold secureServer
  refine triple_ite (fun zero => ?_) fun _ => ?_
  · exact ready (by omega) fun m same => quitAttempt_advances config imap same _
  refine triple_ite (fun _ => exit_advances _ spoken) fun positive => ?_
  refine ready (by omega) fun m same => ?_
  refine triple_ite (fun _ => ?_) fun _ => triple_ite (fun _ =>
    quitAttempt_advances config imap same _) fun _ =>
      authenticateServer_advances config imap st same _ _
  refine triple_bind (triple_mono sslClient_linked (fun _ => id) (fun _ _ => id)
    fun _ said => said.mono fun _ => And.left) fun secured => triple_ite (fun _ =>
      exit_advances _ fun w linked => linked.said.mono fun _ => And.left) fun _ => ?_
  exact authenticateServer_advances config imap
    { st with tlsState := st.tlsState ||| sslModeTlsOutgoing } same auth status

theorem setUpServer_advances (config : Config) (imap : config.protocol = .imap4)
    (tag : st.ourTag = ourTag n) :
    Advances config.buffers (Linked (Counted config.buffers 0 n)) (setUpServer config st) := by
  refine advances_beside counted_untold (fun _ => Counted.spoken) (mangledId_aside _ _ _)
    fun id _ => advances_beside counted_untold (fun _ => Counted.spoken)
      (show (Session.note _).Obeys aside fun _ => True from ⟨trivial, fun _ _ => trivial⟩) fun _ _ => ?_
  dsimp only
  rw [imap, tag]
  have setUp : Triple World.step (Linked (Counted config.buffers 0 n))
      (Session.exchange (imap4OutSetup config.opt config.platform (ourTag n)))
      (fun r => Linked fun log => Spoken config.buffers log ∧
        (0 ≤ r.1 → ∃ m, r.2 = ourTag m ∧ Pending config.buffers m log))
      (Said (Spoken config.buffers)) :=
    exchange_linked (imap4OutSetup_sending _ _ (ourTag_ours n))
      (imap4OutSetup_tags _ _ fun outgoing => by simp [Config.buffers, outgoing])
  exact triple_bind setUp fun result =>
    secureServer_advances config imap { st with ourTag := result.2 } _ result.1

theorem dialServer_advances (config : Config) (imap : config.protocol = .imap4)
    (tag : st.ourTag = ourTag n) (server : CString) :
    Advances config.buffers (Said (Counted config.buffers 0 n)) (dialServer config st server) := by
  have dialled (port : CString) : Triple World.step (Said (Counted config.buffers 0 n))
      (Session.perform (.clientOpen server port))
      (choice (Linked (Counted config.buffers 0 n)) (Said (Counted config.buffers 0 n)))
      (Said (Spoken config.buffers)) := by
    intro fuel w said
    change Outcome.Meets _ _ (.done w.clientOpen.1 w.clientOpen.2)
    unfold World.clientOpen
    split
    · rename_i script rest _
      refine ⟨⟨said.client, ?_⟩, w.serverConnection script, rfl, rfl⟩
      change Counted config.buffers 0 n (World.record _ [_]).log
      rw [World.log_silent _ _ fun _ => rfl]
      exact said.log
    · refine ⟨said.client, ?_⟩
      change Counted config.buffers 0 n (World.record _ [_]).log
      rw [World.log_silent _ _ fun _ => rfl]
      exact said.log
    · refine ⟨said.client, ?_⟩
      change Counted config.buffers 0 n (World.record _ [_]).log
      rw [World.log_silent _ _ fun _ => rfl]
      exact said.log
  refine triple_bind (dialled _) fun opened => ?_
  cases opened with
  | false => exact failAttempt_advances config _ tag
  | true =>
    refine triple_ite (fun failed => absurd failed (by decide)) fun _ =>
      triple_ite (fun _ => ?_) fun _ => setUpServer_advances config imap tag
    refine triple_bind (triple_mono sslClient_linked (fun _ => id) (fun _ _ => id)
      fun _ said => said.mono fun _ => Counted.spoken) fun secured => triple_ite (fun _ =>
        exit_advances _ fun w linked => linked.said.mono fun _ => Counted.spoken) fun _ => ?_
    exact setUpServer_advances config imap tag

theorem authenticateLocally_advances (config : Config) (imap : config.protocol = .imap4)
    (tag : st.ourTag = ourTag n) (server : CString) :
    Advances config.buffers (Said (Counted config.buffers 0 n))
      (authenticateLocally config st server) := by
  refine triple_ite (fun wanted => ?_) fun unwanted => dialServer_advances config imap tag server
  refine advances_aside counted_untold (fun _ => Counted.spoken) (mangledId_aside _ _ _) fun id _ => ?_
  refine advances_aside counted_untold (fun _ => Counted.spoken) (inAuthenticate_aside _ _ _)
    fun status _ => advances_aside counted_untold (fun _ => Counted.spoken)
      (show (Session.note _).Obeys aside fun _ => True from ⟨trivial, fun _ _ => trivial⟩) fun _ _ => ?_
  exact triple_ite (fun _ => cleanUpMain_advances tag) fun _ => triple_ite (fun _ =>
    exit_advances _ fun w said => said.mono fun _ => Counted.spoken) fun _ =>
      dialServer_advances config imap tag server

theorem locateServer_advances (config : Config) (imap : config.protocol = .imap4)
    (tag : st.ourTag = ourTag n) :
    Advances config.buffers (Said (Counted config.buffers 0 n)) (locateServer config st) := by
  refine advances_aside counted_untold (fun _ => Counted.spoken) (lookUp_aside _ _) fun st' same => ?_
  have kept : (useDefaults config (useEntry config st')).ourTag = ourTag n := by
    rw [(useDefaults_looked config _).ourTag, (useEntry_looked config st').ourTag, same, tag]
  generalize useDefaults config (useEntry config st') = st'' at kept
  dsimp only
  split
  · exact failAttempt_advances config _ kept
  · refine triple_ite (fun _ => failAttempt_advances config _ kept) fun _ => ?_
    exact advances_aside counted_untold (fun _ => Counted.spoken)
      (show (Session.note _).Obeys aside fun _ => True from ⟨trivial, fun _ _ => trivial⟩)
      fun _ _ => authenticateLocally_advances config imap kept _

theorem dispatch_advances (config : Config) (imap : config.protocol = .imap4)
    (tag : st.ourTag = ourTag n) (status : Int) :
    Advances config.buffers (Said (Counted config.buffers 0 n)) (dispatch config st status) := by
  have stopped : ∀ w, Said (Counted config.buffers 0 n) w → Said (Spoken config.buffers) w :=
    fun w said => said.mono fun _ => Counted.spoken
  have passed (what : Note) : (Session.note what).Obeys aside fun _ => True :=
    ⟨trivial, fun _ _ => trivial⟩
  refine triple_ite (fun _ => exit_advances _ stopped) fun _ =>
    triple_ite (fun _ => exit_advances _ stopped) fun _ => triple_ite (fun _ => ?starttls)
      fun _ => ?login
  case starttls =>
    refine advances_aside counted_untold (fun _ => Counted.spoken)
      (show (Session.perform .sslServerConnection).Obeys aside fun _ => True from
        ⟨trivial, fun _ _ => trivial⟩) fun secured _ => triple_ite (fun _ =>
          exit_advances _ stopped) fun _ => ?_
    exact advances_aside counted_untold (fun _ => Counted.spoken) (passed _)
      fun _ _ => triple_pure fun w said => ⟨n, tag, said⟩
  case login =>
    refine advances_aside counted_untold (fun _ => Counted.spoken) (passed _) fun _ _ =>
      triple_ite (fun _ => ?_) fun _ => locateServer_advances config imap tag
    exact advances_aside counted_untold (fun _ => Counted.spoken) (passed _)
      fun _ _ => failAttempt_advances config _ tag

theorem attempt_advances (config : Config) (imap : config.protocol = .imap4)
    (tag : st.ourTag = ourTag n) :
    Advances config.buffers (Said (Counted config.buffers 0 n)) (attempt config st) := by
  have passed (what : Note) : (Session.note what).Obeys aside fun _ => True :=
    ⟨trivial, fun _ _ => trivial⟩
  refine advances_aside counted_untold (fun _ => Counted.spoken) (passed _) fun _ _ => ?_
  refine advances_aside counted_untold (fun _ => Counted.spoken) (client_aside _) fun result _ => ?_
  refine advances_aside counted_untold (fun _ => Counted.spoken)
    (show (Session.perform .tokenFlush).Obeys aside fun _ => True from ⟨trivial, fun _ _ => trivial⟩)
    fun _ _ => advances_aside counted_untold (fun _ => Counted.spoken) (passed _) fun _ _ => ?_
  exact dispatch_advances config imap (show { st with
    auth := result.auth.getD st.auth
    clientTag := if result.tag.isSome then result.tag else st.clientTag }.ourTag = ourTag n from tag) _

end Attempts

/-! ## Sessions -/

theorem authenticationLoop_spoken (config : Config) (imap : config.protocol = .imap4) :
    Triple World.step (Said (Counted config.buffers 0 0)) (authenticationLoop config)
      (fun _ => Said (Spoken config.buffers)) (Said (Spoken config.buffers)) := by
  have loop : Triple World.step
      (fun w => ∃ n, (LoopState.start config).ourTag = ourTag n ∧ Said (Counted config.buffers 0 n) w)
      (authenticationLoop config) (fun _ => Said (Spoken config.buffers))
      (Said (Spoken config.buffers)) := by
    refine triple_loop (fun (st : LoopState) w => ∃ n, st.ourTag = ourTag n ∧ Said (Counted config.buffers 0 n) w)
      (fun st => triple_exists fun n => triple_fact fun tag => ?_)
      fun st w ⟨n, _, said⟩ => said.mono fun _ => Counted.spoken
    refine triple_mono (attempt_advances config imap tag) (fun _ => id) (fun r w advanced => ?_)
      fun _ => id
    cases r with
    | inl again => exact advanced
    | inr final => exact advanced
  exact triple_mono loop (fun w said => ⟨0, rfl, said⟩) (fun _ _ => id) fun _ => id

theorem main_spoken (config : Config) (imap : config.protocol = .imap4) :
    Triple World.step (Said (Counted config.buffers 0 0)) (main config)
      (fun _ => Said (Spoken config.buffers)) (Said (Spoken config.buffers)) := by
  have said {β : Type} {first : Session β} {rest : β → Session LoopState}
      (obeys : first.Obeys aside fun _ => True)
      (finish : ∀ b, Triple World.step (Said (Counted config.buffers 0 0)) (rest b)
        (fun _ => Said (Spoken config.buffers)) (Said (Spoken config.buffers))) :
      Triple World.step (Said (Counted config.buffers 0 0)) (first >>= rest)
        (fun _ => Said (Spoken config.buffers)) (Said (Spoken config.buffers)) :=
    triple_bind (triple_mono (aside_said counted_untold obeys) (fun _ => id)
      (fun _ _ => And.right) fun _ said => said.mono fun _ => Counted.spoken) finish
  have stopped : Triple World.step (Said (Counted config.buffers 0 0))
      (Session.exit (-1) : Session LoopState) (fun _ => Said (Spoken config.buffers))
      (Said (Spoken config.buffers)) := fun _ _ said => said.mono fun _ => Counted.spoken
  have greeted : Triple World.step (Said (Counted config.buffers 0 0)) (do
      if (← Session.client (config.protocol.greeting config.opt config.platform)) < 0 then
        Session.exit (-1)
      else authenticationLoop config) (fun _ => Said (Spoken config.buffers))
      (Said (Spoken config.buffers)) :=
    said (client_aside _) fun status => triple_ite (fun _ => stopped)
      fun _ => authenticationLoop_spoken config imap
  refine triple_ite (fun _ => ?_) fun _ => ?_
  · exact said (show (Session.perform .sslServerConnection).Obeys aside fun _ => True from
      ⟨trivial, fun _ _ => trivial⟩) fun secured => triple_ite (fun _ => stopped) fun _ => greeted
  · have plain : (pure true : Session Bool).Obeys aside fun _ => True := trivial
    exact said plain fun secured => triple_ite (fun _ => stopped) fun _ => greeted

/-- What was said to the real servers in a run of `main`, and heard from them. -/
def mainLog (config : Config) (fuel : Nat) (w : World) : Log :=
  (Session.run (main config) fuel w).state.log

/-- In every run of `main` the commands to the real servers have different tags, where each CAPABILITY
command that another message follows was answered, the client could be written to, and no tag has a
letter in upper case. -/
theorem main_tagsFresh (config : Config) (imap : config.protocol = .imap4) (fuel : Nat) (w : World)
    (fresh : w.Fresh) (kept : (mainLog config fuel w).Kept config.buffers)
    (lower : ∀ tag ∈ (mainLog config fuel w).tags, LowerTag tag) :
    TagsFresh (mainLog config fuel w).tags := by
  have started : Said (Counted config.buffers 0 0) w := by
    refine ⟨by rw [fresh.client], fun _ => ?_⟩
    have start : w.log = .start := by rw [World.log, fresh.trace]; rfl
    rw [start]
    exact ⟨rfl, .start⟩
  have spoken : Said (Spoken config.buffers) (Session.run (main config) fuel w).state :=
    Outcome.meets_iff_state.mp (main_spoken config imap fuel w started)
  have ⟨n, numbered⟩ := spoken.log kept
  exact (numbered.lower lower).2.1

/-- A login whose CAPABILITY command is answered. -/
theorem main_tagsFresh_answered :
    let w := World.accepted [bytes "a LOGIN user pass\r\n"] []
      [some ⟨[bytes "* OK hi\r\n", bytes "* CAPABILITY IMAP4\r\nflim07 OK done\r\n",
        bytes "+ go\r\n+ go\r\nflim08 OK done\r\n"], [], []⟩]
    TagsFresh (mainLog (Config.sample .imap4) 100 w).tags := by
  intro w
  have log : mainLog (Config.sample .imap4) 100 w =
      ⟨⟨bytes "pass\r\n", true, bytes "flim08 OK done\r\n", false⟩,
        [⟨bytes "user \x7b4\x7d\r\n", true, bytes "+ go\r\n", false⟩,
          ⟨bytes "flim08 LOGIN \x7b4\x7d\r\n", true, bytes "+ go\r\n", false⟩,
          ⟨bytes "flim07 CAPABILITY\r\n", true,
            bytes "* CAPABILITY IMAP4\r\nflim07 OK done\r\n", false⟩,
          ⟨[], true, bytes "* OK hi\r\n", false⟩],
        (mainLog (Config.sample .imap4) 100 w).told⟩ := by decide +kernel
  have told : ∀ message ∈ (mainLog (Config.sample .imap4) 100 w).told, message.2 = true := by
    decide +kernel
  refine main_tagsFresh _ rfl _ _ (World.accepted_fresh ..) ⟨?_, told⟩ (by rw [log]; decide +kernel)
  rw [log]
  intro turn member
  simp only [List.mem_cons, List.not_mem_nil, or_false] at member
  rcases member with rfl | rfl | rfl | rfl
  · exact fun _ asks => absurd asks (by decide)
  · exact fun _ asks => absurd asks (by decide)
  · refine fun _ _ => ⟨rfl, bytes "* CAPABILITY IMAP4\r", [], bytes "flim07 OK done\r", [], by decide, ?_⟩
    exact ⟨by decide, ⟨_, rfl, by decide⟩, by decide, by simp, by decide, by decide, by decide,
      fun buffered => absurd buffered (by decide), fun buffered => absurd buffered (by decide)⟩
  · exact fun _ asks => absurd asks (by decide)

/-- A real server that answers CAPABILITY with something else is sent LOGIN with the same tag. -/
theorem main_tagsFresh_unanswered :
    ¬ TagsFresh (mainLog (Config.sample .imap4) 100 (World.accepted [bytes "a LOGIN user pass\r\n"] []
      [some ⟨[bytes "* OK hi\r\n", bytes "* BYE x\r\n"], [], []⟩])).tags := by
  decide +kernel

end Perdition
