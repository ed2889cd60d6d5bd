import Perdition.Spec.Phase

/-!
# What holds on every path of a session

Invariants of the transition system, each found from what its steps can do, and the safety
properties they give: bytes are taken by the connection they were read from, connections to the real
server and logins there are made for admitted credentials only, and the set-up of a server sends
no credentials.
-/
namespace Perdition

open Lib

/-! ## Attempts -/

/-- `in_get_auth` is called here. -/
def Event.begins : Event → Bool
  | .noted (.inGetAuth _) _ => true
  | _ => false

/-- `PERDITION_CLEAN_UP_MAIN` is executed here. -/
def Event.cleansUp : Event → Bool
  | .noted .cleanUp _ => true
  | _ => false

/-- The events up to the last one of a kind, and those after it. -/
def cutAfter (kind : Event → Bool) (trace : List Event) : List Event × List Event :=
  trace.foldl (fun cut e => if kind e then (cut.1 ++ cut.2 ++ [e], []) else (cut.1, cut.2 ++ [e]))
    ([], [])

theorem cutAfter_append (kind : Event → Bool) (trace : List Event) (e : Event) :
    cutAfter kind (trace ++ [e]) =
      if kind e then ((cutAfter kind trace).1 ++ (cutAfter kind trace).2 ++ [e], [])
      else ((cutAfter kind trace).1, (cutAfter kind trace).2 ++ [e]) := by
  simp [cutAfter]

theorem cutAfter_all (kind : Event → Bool) (trace : List Event) :
    (cutAfter kind trace).1 ++ (cutAfter kind trace).2 = trace := by
  induction trace using List.reverseRecOn with
  | nil => rfl
  | append_singleton trace e ih =>
    rw [cutAfter_append]
    split
    · simp [ih]
    · rw [← List.append_assoc, ih]

/-- The events up to the last call of `in_get_auth`. -/
def beforeAttempt (trace : List Event) : List Event := (cutAfter Event.begins trace).1

/-- The events since the last call of `in_get_auth`: those of the present attempt. -/
def attemptOf (trace : List Event) : List Event := (cutAfter Event.begins trace).2

/-- The events since the last attempt was given up. -/
def sinceCleanUp (trace : List Event) : List Event := (cutAfter Event.cleansUp trace).2

theorem attemptOf_append (trace : List Event) (e : Event) :
    attemptOf (trace ++ [e]) = if e.begins then [] else attemptOf trace ++ [e] := by
  simp only [attemptOf, cutAfter_append]
  split <;> rfl

theorem beforeAttempt_append (trace : List Event) (e : Event) :
    beforeAttempt (trace ++ [e]) = if e.begins then trace ++ [e] else beforeAttempt trace := by
  simp only [beforeAttempt, cutAfter_append]
  split
  · rw [cutAfter_all]
  · rfl

theorem sinceCleanUp_append (trace : List Event) (e : Event) :
    sinceCleanUp (trace ++ [e]) = if e.cleansUp then [] else sinceCleanUp trace ++ [e] := by
  simp only [sinceCleanUp, cutAfter_append]
  split <;> rfl

theorem mem_of_sinceCleanUp {trace : List Event} {e : Event} (member : e ∈ sinceCleanUp trace) :
    e ∈ trace := by
  rw [← cutAfter_all Event.cleansUp trace]
  exact List.mem_append_right _ member

/-- What happened in an attempt stays in it until the next one begins. -/
theorem mem_attemptOf_append {trace : List Event} {e known : Event} (going : e.begins = false)
    (member : known ∈ attemptOf trace) : known ∈ attemptOf (trace ++ [e]) := by
  rw [attemptOf_append, going]
  exact List.mem_append_left _ member

/-- The last event of an attempt is in it. -/
theorem mem_attemptOf_last {trace : List Event} {e : Event} (going : e.begins = false) :
    e ∈ attemptOf (trace ++ [e]) := by
  rw [attemptOf_append, going]
  simp

/-! ## Whose connection is whose -/

section Paths

variable {config : Config} {trace : List Event} {p : Phase}

/-- The connections of a phase belong to the right parties. -/
structure Parties (p : Phase) : Prop where
  /-- The client is the client. -/
  client : p.client.party = .client
  /-- The real server is the server. -/
  server : ∀ id, p.server = some id → id.party = .server

theorem Parties.step {e : Event} {p' : Phase} (holds : Parties p)
    (next : Phase.Step config p e p') : Parties p' := by
  have secured {id id' : IoId} (present : p.server = some id) (same : id.secured = id') :
      id'.party = .server := same ▸ holds.server id present
  cases next with
  | opened turn plain party => exact ⟨holds.client, fun id same => by cases same; exact party⟩
  | dialled turn server => exact ⟨holds.client, fun id same => secured server (Option.some.inj same)⟩
  | secured turn server => exact ⟨holds.client, fun id same => secured server (Option.some.inj same)⟩
  | closed turn server => exact ⟨holds.client, fun id same => by cases same⟩
  | _ => exact ⟨holds.client, holds.server⟩

theorem parties_of_path (path : SessionPath config trace p) : Parties p :=
  path.invariant (fun _ p => Parties p) ⟨rfl, fun id same => by cases same⟩
    fun _ _ _ _ _ holds next => holds.step next

/-! ## Isolation -/

/-- Stages that are entered, or come after one that is entered, with an empty read buffer. -/
def Stage.quiet : Stage → Bool
  | starting | read | returned _ | upgraded | tested | refused | located | admitted | connected
  | flushed => true
  | _ => false

/-- Unread bytes are those of the connection that is read, and there are none in a quiet stage. -/
structure Sourced (p : Phase) : Prop where
  /-- Where a connection is read the unread bytes are its own. -/
  reading : ∀ party conn, p.stage.reads = some party → p.conn party = some conn →
    p.source = none ∨ p.source = some conn
  /-- In a quiet stage there are none. -/
  quiet : p.stage.quiet → p.source = none

theorem Sourced.of_none (empty : p.source = none) : Sourced p :=
  ⟨fun _ _ _ _ => .inl empty, fun _ => empty⟩

theorem Sourced.of_loose (reads : p.stage.reads = none) (quiet : p.stage.quiet = false) :
    Sourced p :=
  ⟨fun party conn turn => by simp [reads] at turn, fun given => by simp [quiet] at given⟩

/-- The connection that is read has the unread bytes. -/
theorem Sourced.origin (holds : Sourced p) {party : Party} {reader source : IoId}
    (turn : p.stage.reads = some party) (conn : p.conn party = some reader)
    (origin : source = reader ∨ p.source = some source) : source = reader := by
  rcases origin with same | unread
  · exact same
  · rcases holds.reading party reader turn conn with none | some
    · simp [none] at unread
    · exact Option.some.inj (unread.symm.trans some)

theorem Stage.not_quiet {stage : Stage} {party : Party} (turn : stage.reads = some party) :
    stage.quiet = false := by
  cases stage <;> simp_all [Stage.reads, Stage.quiet]

/-- A step keeps the buffer in order when an attempt begins with an empty one. -/
theorem Sourced.step {e : Event} {p' : Phase} (holds : Sourced p)
    (next : Phase.Step config p e p')
    (clean : ∀ tlsState unread, e = .noted (.inGetAuth tlsState) unread → unread = []) :
    Sourced p' := by
  have kept (turn : p.stage.quiet = true) : p.source = none := holds.quiet turn
  cases next with
  | took turn conn origin =>
    obtain rfl := holds.origin turn conn origin
    refine ⟨fun party' conn' turn' same => .inr ?_, fun quiet => ?_⟩
    · obtain rfl := Option.some.inj (turn.symm.trans turn')
      exact conn.symm.trans same
    · exact absurd quiet (by simp [Stage.not_quiet turn])
  | starved | answered | setUp | sent | clientFailed | serverFailed | pamStarted
  | pamAuthenticated => exact holds
  | flushedClient | flushedServer => exact .of_none rfl
  | inGetAuth => exact .of_none (if_pos (clean _ _ rfl))
  | listened turn | accepted turn | dialled turn | gotAuth turn | starttls turn
  | loginDisabledTest turn | loginDisabled turn | located turn | inAuthenticated turn
  | outSetup turn | outAuthenticate turn => exact .of_none (kept (by simp [turn, Stage.quiet]))
  | opened turn | openFailed turn =>
    exact .of_none (kept (by rcases turn with turn | turn <;> simp [turn, Stage.quiet]))
  | secured | cleanUp | loggedIn => exact .of_loose rfl rfl
  | closed turn => exact .of_loose (by simp [turn, Stage.reads]) (by simp [turn, Stage.quiet])

/-- Where every attempt begins with an empty read buffer, every byte is taken by the connection it
was read from. -/
theorem isolation_of_path (path : SessionPath config trace p)
    (clean : ∀ tlsState unread, .noted (.inGetAuth tlsState) unread ∈ trace → unread = []) :
    ∀ reader source b, .took reader source b ∈ trace → source = reader := by
  let holds (trace : List Event) (p : Phase) : Prop :=
    (∀ tlsState unread, .noted (.inGetAuth tlsState) unread ∈ trace → unread = []) →
      Sourced p ∧ ∀ reader source b, .took reader source b ∈ trace → source = reader
  have all : holds trace p := by
    refine path.invariant holds (fun _ => ⟨.of_none rfl, by simp⟩) ?_
    intro labels state label after _ ih next clean
    obtain ⟨sourced, isolated⟩ := ih fun tlsState unread member =>
      clean tlsState unread (List.mem_append_left _ member)
    refine ⟨sourced.step next fun tlsState unread same =>
      clean tlsState unread (by simp [same]), fun reader source b member => ?_⟩
    rcases List.mem_append.mp member with before | last
    · exact isolated reader source b before
    · obtain rfl := List.mem_singleton.mp last
      cases next with
      | took turn conn origin => exact sourced.origin turn conn origin
  exact (all clean).2

/-! ## The TLS state of the client -/

theorem has_or_self (flags : Flag) : (flags ||| sslModeTlsListen).has sslModeTlsListen := by
  have absorbed : (flags ||| sslModeTlsListen) &&& sslModeTlsListen = sslModeTlsListen := by
    apply UInt32.eq_of_toBitVec_eq
    ext i
    simp only [UInt32.toBitVec_and, UInt32.toBitVec_or, BitVec.getElem_and, BitVec.getElem_or]
    cases sslModeTlsListen.toBitVec[i] <;> simp
  rw [Flag.has, absorbed]
  decide

/-- The client has started TLS. -/
def StartedTls (trace : List Event) : Prop := ∃ unread, .noted .starttls unread ∈ trace

/-- The client has started TLS, and an attempt was given up since. -/
def Forgotten (trace : List Event) : Prop :=
  StartedTls trace ∧ ¬ StartedTls (sinceCleanUp trace)

/-- The bit for TLS tells whether TLS was started since an attempt was last given up. -/
theorem tlsState_of_path (path : SessionPath config trace p) :
    p.tlsState.has sslModeTlsListen ↔ StartedTls (sinceCleanUp trace) := by
  refine path.invariant
    (fun trace p => p.tlsState.has sslModeTlsListen ↔ StartedTls (sinceCleanUp trace)) ?_ ?_
  · simp [StartedTls, sinceCleanUp, cutAfter, Phase.start, Flag.has, sslModeEmpty]
  · intro labels state label after _ ih next
    have kept (other : label.cleansUp = false) (quiet : ∀ unread, label ≠ .noted .starttls unread) :
        StartedTls (sinceCleanUp (labels ++ [label])) ↔ StartedTls (sinceCleanUp labels) := by
      simp only [StartedTls, sinceCleanUp_append, other, Bool.false_eq_true, if_false,
        List.mem_append, List.mem_singleton]
      exact exists_congr fun unread => or_iff_left fun same => quiet unread same.symm
    cases next with
    | starttls =>
      rename_i unread _
      refine iff_of_true (has_or_self _) ⟨unread, ?_⟩
      rw [sinceCleanUp_append]
      exact List.mem_append_right _ (List.mem_singleton_self _)
    | cleanUp =>
      refine iff_of_false (by simp [Flag.has]) fun ⟨unread, member⟩ => ?_
      simp [sinceCleanUp_append, Event.cleansUp] at member
    | _ => exact ih.trans (kept rfl (by simp)).symm

/-- Where the TLS state is used it tells whether the client has started TLS, unless that was
forgotten. -/
theorem tlsState_exact {front back : List Event} {what : Note} {unread : List Byte}
    {tlsState : Flag} (path : SessionPath config (front ++ .noted what unread :: back) p)
    (used : what = .inGetAuth tlsState ∨ what = .loginDisabledTest tlsState) :
    (tlsState.has sslModeTlsListen ↔ StartedTls front) ↔ ¬ Forgotten front := by
  obtain ⟨before, after, reached, next, _⟩ := path.split
  have known : tlsState.has sslModeTlsListen ↔ StartedTls (sinceCleanUp front) := by
    rcases used with rfl | rfl <;> cases next <;> exact tlsState_of_path reached
  have earlier : StartedTls (sinceCleanUp front) → StartedTls front :=
    fun ⟨unread, member⟩ => ⟨unread, mem_of_sinceCleanUp member⟩
  rw [known, Forgotten]
  tauto

/-- Logins are disabled where the client is told so. -/
theorem refused_of_path (path : SessionPath config trace p) (refused : p.stage = .refused) :
    loginsDisabled config.opt 0 p.tlsState := by
  let holds (_ : List Event) (p : Phase) : Prop :=
    p.stage = .refused → loginsDisabled config.opt 0 p.tlsState
  refine path.invariant holds (fun start => by cases start) ?_ refused
  intro labels state label after _ ih next refused
  cases next with
  | loginDisabledTest =>
    by_contra enabled
    simp [enabled] at refused
  | inAuthenticated =>
    dsimp only at refused
    split at refused <;> cases refused
  | took | starved | answered | setUp | sent | clientFailed | serverFailed | pamStarted
  | pamAuthenticated | listened | dialled | closed => exact ih refused
  | _ => cases refused

/-- A client that has started TLS is answered `Login Disabled` only when that was forgotten, or
logins are disabled altogether. -/
theorem loginDisabled_exact {front back : List Event} {unread : List Byte}
    (path : SessionPath config (front ++ .noted .loginDisabled unread :: back) p)
    (enabled : config.opt.loginDisabled = false) : ¬ StartedTls (sinceCleanUp front) := by
  obtain ⟨before, after, reached, next, _⟩ := path.split
  rw [← tlsState_of_path reached]
  cases next with
  | loginDisabled turn =>
    have disabled := refused_of_path reached turn
    simp only [loginsDisabled, enabled, Bool.false_or, Bool.and_eq_true,
      Bool.not_eq_true'] at disabled
    simp [disabled.2]

/-! ## The real server -/

/-- Stages after TLS was started with the real server, where it is required. -/
def Stage.sends : Stage → Bool
  | secured | flushed | authenticating => true
  | _ => false

/-- TLS was started in this attempt with the real server that is connected. -/
def SecuredIn (trace : List Event) (p : Phase) : Prop :=
  ∃ plain unread, .upgraded plain unread ∈ attemptOf trace ∧ p.server = some plain.secured

theorem SecuredIn.more {e : Event} {p' : Phase} (holds : SecuredIn trace p)
    (going : e.begins = false) (same : p'.server = p.server) :
    SecuredIn (trace ++ [e]) p' :=
  let ⟨plain, unread, member, server⟩ := holds
  ⟨plain, unread, mem_attemptOf_append going member, same.trans server⟩

/-- Where TLS is required it has been started before the credentials are sent. -/
theorem secured_of_path (forced : Phase.outgoingForced config)
    (path : SessionPath config trace p) (sends : p.stage.sends) : SecuredIn trace p := by
  let holds (trace : List Event) (p : Phase) : Prop := p.stage.sends → SecuredIn trace p
  refine path.invariant holds (fun start => by cases start) ?_ sends
  intro labels state label after _ ih next sends
  cases next with
  | took turn =>
    exact (ih sends).more rfl rfl
  | starved | answered | setUp | sent | clientFailed | serverFailed | pamStarted
  | pamAuthenticated | listened => exact (ih sends).more rfl rfl
  | flushedServer turn =>
    rcases turn with turn | ⟨_, free⟩
    · exact (ih (by simp [turn, Stage.sends])).more rfl rfl
    · simp [forced] at free
  | secured turn server => exact ⟨_, _, mem_attemptOf_last rfl, rfl⟩
  | dialled turn => simp [turn, Stage.sends] at sends
  | outAuthenticate turn => exact (ih (by simp [turn, Stage.sends])).more rfl rfl
  | closed turn => simp [turn, Stage.sends] at sends
  | loginDisabledTest | inAuthenticated =>
    dsimp only at sends
    split at sends <;> cases sends
  | _ => cases sends

/-- Where TLS is required, what a real server is sent is a line of the set-up, or TLS was started on
that connection before in the same attempt. -/
theorem upstream_of_path {front back : List Event} {id : IoId} {content : List Byte} {ok : Bool}
    (path : SessionPath config (front ++ .wrote id content ok :: back) p)
    (forced : Phase.outgoingForced config) (server : id.party = .server) :
    SetupLine config.protocol content ∨
      ∃ plain unread, .upgraded plain unread ∈ attemptOf front ∧ id = plain.secured := by
  obtain ⟨before, after, reached, next, _⟩ := path.split
  cases next with
  | answered =>
    rw [(parties_of_path reached).client] at server
    cases server
  | setUp _ _ line => exact .inl line
  | sent turn same =>
    obtain ⟨plain, unread, member, connected⟩ :=
      secured_of_path forced reached (by simp [turn, Stage.sends])
    exact .inr ⟨plain, unread, member, Option.some.inj (same.symm.trans connected)⟩

/-! ## The login gate -/

/-- In a quiet stage no bytes are unread. -/
theorem quiet_of_path (path : SessionPath config trace p) (quiet : p.stage.quiet) :
    p.source = none := by
  let holds (_ : List Event) (p : Phase) : Prop := p.stage.quiet → p.source = none
  refine path.invariant holds (fun _ => rfl) ?_ quiet
  intro labels state label after _ ih next quiet
  cases next with
  | took turn => simp [Stage.not_quiet turn] at quiet
  | starved | answered | setUp | sent | clientFailed | serverFailed | pamStarted
  | pamAuthenticated => exact ih quiet
  | flushedClient | flushedServer => rfl
  | listened turn | accepted turn | dialled turn | gotAuth turn | loginDisabledTest turn
  | located turn | inAuthenticated turn | outSetup turn => exact ih (by simp [turn, Stage.quiet])
  | opened turn => exact ih (by rcases turn with turn | turn <;> simp [turn, Stage.quiet])
  | closed turn => simp [turn, Stage.quiet] at quiet
  | _ => cases quiet

/-- The connection of the client was upgraded. -/
def ClientUpgraded (trace : List Event) : Prop :=
  ∃ id unread, .upgraded id unread ∈ trace ∧ id.party = .client

theorem ClientUpgraded.more {e : Event} (holds : ClientUpgraded trace) :
    ClientUpgraded (trace ++ [e]) :=
  let ⟨id, unread, member, party⟩ := holds
  ⟨id, unread, List.mem_append_left _ member, party⟩

/-- TLS with the client is in use, or just about to be noted. -/
def Phase.listening (p : Phase) : Prop := p.tlsState.has sslModeTlsListen ∨ p.stage = .upgraded

/-- Where the TLS state says so the connection of the client is upgraded. -/
theorem layer_of_path (path : SessionPath config trace p) (listening : p.listening) :
    0 < p.client.layer ∧ ClientUpgraded trace := by
  let holds (trace : List Event) (p : Phase) : Prop :=
    p.listening → 0 < p.client.layer ∧ ClientUpgraded trace
  refine path.invariant holds (fun start => ?_) ?_ listening
  · rcases start with start | start
    · simp [Phase.start, Flag.has, sslModeEmpty] at start
    · cases start
  · intro labels state label after reached ih next listening
    have more (given : state.listening) : 0 < state.client.layer ∧
        ClientUpgraded (labels ++ [label]) := (ih given).imp_right ClientUpgraded.more
    cases next with
    | took | starved | answered | setUp | sent | clientFailed | serverFailed | pamStarted
    | pamAuthenticated | dialled | closed => exact more listening
    | listened turn =>
      exact ⟨Nat.succ_pos _, _, _, List.mem_append_right _ (List.mem_singleton_self _),
        (parties_of_path reached).client⟩
    | accepted turn =>
      exact ⟨Nat.succ_pos _, _, _, List.mem_append_right _ (List.mem_singleton_self _),
        (parties_of_path reached).client⟩
    | starttls turn => exact more (.inr turn)
    | cleanUp => simp [Phase.listening, Flag.has] at listening
    | loginDisabledTest | inAuthenticated =>
      refine more (.inl (listening.resolve_right fun stage => ?_))
      dsimp only at stage
      split at stage <;> cases stage
    | _ => exact more (.inl (listening.resolve_right fun stage => by cases stage))

/-- Over TLS an attempt begins with an empty read buffer and reads from the client. -/
theorem shielded_of_path (path : SessionPath config trace p)
    (listening : p.tlsState.has sslModeTlsListen) :
    (p.stage = .idle → p.source = none) ∧
      (p.stage = .reading → p.source = none ∨ p.source = some p.client) := by
  let holds (_ : List Event) (p : Phase) : Prop := p.tlsState.has sslModeTlsListen →
    (p.stage = .idle → p.source = none) ∧
      (p.stage = .reading → p.source = none ∨ p.source = some p.client)
  refine path.invariant holds (fun _ => ⟨by simp [Phase.start], by simp [Phase.start]⟩) ?_
    listening
  intro labels state label after reached ih next listening
  cases next with
  | took turn conn origin =>
    refine ⟨fun stage => ?_, fun stage => .inr ?_⟩
    · dsimp only at stage
      simp [stage, Stage.reads] at turn
    · dsimp only at stage
      simp only [stage, Stage.reads, Option.some.injEq] at turn
      subst turn
      obtain rfl := Option.some.inj conn
      rcases origin with same | same
      · exact congrArg some same
      · exact (((ih listening).2 stage).resolve_left (by simp [same])) ▸ same.symm
  | starved | answered | setUp | sent | clientFailed | serverFailed | pamStarted
  | pamAuthenticated | dialled | closed => exact ih listening
  | listened turn => exact ⟨by simp [turn], by simp [turn]⟩
  | starttls turn =>
    have empty : state.source = none := quiet_of_path reached (by simp [turn, Stage.quiet])
    exact ⟨fun _ => empty, nofun⟩
  | inGetAuth turn =>
    refine ⟨nofun, fun _ => .inl ?_⟩
    have empty : state.source = none := by
      rcases turn with turn | turn
      · exact quiet_of_path reached (by simp [turn, Stage.quiet])
      · exact (ih listening).1 turn
    simp [empty]
  | cleanUp => simp [Flag.has] at listening
  | loginDisabledTest | inAuthenticated =>
    dsimp only
    split <;> exact ⟨nofun, nofun⟩
  | _ => exact ⟨nofun, nofun⟩

/-- The bytes taken for the client in an attempt were read after its connection was upgraded. -/
def ReadOverTls (during : List Event) : Prop :=
  ∀ reader source b, .took reader source b ∈ during → reader.party = .client →
    source.party = .client ∧ 0 < source.layer

/-- Over TLS the client was upgraded before the attempt, and what was read from it in the attempt
was read after that. -/
theorem overTls_of_path (path : SessionPath config trace p)
    (listening : p.tlsState.has sslModeTlsListen) (busy : p.stage ≠ .idle) :
    ClientUpgraded (beforeAttempt trace) ∧ ReadOverTls (attemptOf trace) := by
  let holds (trace : List Event) (p : Phase) : Prop := p.tlsState.has sslModeTlsListen →
    p.stage ≠ .idle → ClientUpgraded (beforeAttempt trace) ∧ ReadOverTls (attemptOf trace)
  refine path.invariant holds (fun start => ?_) ?_ listening busy
  · simp [Phase.start, Flag.has, sslModeEmpty] at start
  · intro labels state label after reached ih next listening busy
    have more (going : label.begins = false) (given : state.tlsState.has sslModeTlsListen)
        (active : state.stage ≠ .idle)
        (fine : ∀ reader source b, label = .took reader source b → reader.party = .client →
          source.party = .client ∧ 0 < source.layer) :
        ClientUpgraded (beforeAttempt (labels ++ [label])) ∧
          ReadOverTls (attemptOf (labels ++ [label])) := by
      rw [beforeAttempt_append, attemptOf_append, going]
      refine ⟨(ih given active).1, fun reader source b member party => ?_⟩
      rcases List.mem_append.mp member with earlier | last
      · exact (ih given active).2 reader source b earlier party
      · exact fine reader source b (List.mem_singleton.mp last).symm party
    cases next with
    | @took party reader source b turn conn origin =>
      refine more rfl listening busy fun reader' source' b' same client => ?_
      obtain ⟨rfl, rfl, rfl⟩ := Event.took.inj same
      have parties := parties_of_path reached
      cases party with
      | server => simp [parties.server _ conn] at client
      | client =>
        obtain rfl := Option.some.inj conn
        have stage : state.stage = .reading := by
          cases stage : state.stage <;> simp_all [Stage.reads]
        have shielded := (shielded_of_path reached listening).2 stage
        have own : source = state.client := by
          rcases origin with same | same
          · exact same
          · exact Option.some.inj (same.symm.trans (shielded.resolve_left (by simp [same])))
        exact own ▸ ⟨parties.client, (layer_of_path reached (.inl listening)).1⟩
    | inGetAuth turn =>
      rw [beforeAttempt_append, attemptOf_append]
      exact ⟨(layer_of_path reached (.inl listening)).2.more,
        fun reader source b member => by simp [Event.begins] at member⟩
    | starttls | cleanUp => exact absurd rfl busy
    | closed turn => exact absurd turn busy
    | starved | answered | setUp | sent | clientFailed | serverFailed | pamStarted
    | pamAuthenticated => exact more rfl listening busy (by simp)
    | opened turn | openFailed turn =>
      exact more rfl listening (by rcases turn with turn | turn <;> simp [turn]) (by simp)
    | flushedServer turn =>
      exact more rfl listening (by rcases turn with turn | turn <;> simp [turn]) (by simp)
    | loggedIn turn | flushedClient turn | listened turn | accepted turn | dialled turn
    | secured turn | gotAuth turn | loginDisabledTest turn | loginDisabled turn | located turn
    | inAuthenticated turn | outSetup turn | outAuthenticate turn =>
      exact more rfl listening (by simp [turn]) (by simp)

/-- Stages after the test for disabled logins was passed. -/
def Stage.allowed : Stage → Bool
  | tested | located | admitted | connected | settingUp | secured | flushed | authenticating => true
  | _ => false

/-- Stages after the real server was chosen. -/
def Stage.placed : Stage → Bool
  | located | admitted | connected | settingUp | secured | flushed | authenticating => true
  | _ => false

/-- Stages after local authentication, where it is configured. -/
def Stage.trusted : Stage → Bool
  | admitted | connected | settingUp | secured | flushed | authenticating => true
  | _ => false

/-- Past the test logins are not disabled. -/
theorem allowed_of_path (path : SessionPath config trace p) (allowed : p.stage.allowed) :
    loginsDisabled config.opt 0 p.tlsState = false := by
  let holds (_ : List Event) (p : Phase) : Prop :=
    p.stage.allowed → loginsDisabled config.opt 0 p.tlsState = false
  refine path.invariant holds (fun start => by cases start) ?_ allowed
  intro labels state label after reached ih next allowed
  cases next with
  | loginDisabledTest =>
    dsimp only at allowed ⊢
    split at allowed
    · cases allowed
    · exact eq_false_of_ne_true ‹_›
  | took | starved | answered | setUp | sent | clientFailed | serverFailed | pamStarted
  | pamAuthenticated | listened | dialled | closed => exact ih allowed
  | located turn | inAuthenticated turn | secured turn | outSetup turn | outAuthenticate turn =>
    exact ih (by simp [turn, Stage.allowed])
  | opened turn | flushedServer turn =>
    exact ih (by rcases turn with turn | turn <;> simp [turn, Stage.allowed])
  | _ => cases allowed

/-- The credentials of an attempt that is being checked are those `in_get_auth` returned. -/
theorem got_of_path (path : SessionPath config trace p)
    (got : p.stage = .returned 0 ∨ p.stage = .tested) :
    ∃ unread, .noted (.gotAuth 0 p.auth) unread ∈ attemptOf trace := by
  let holds (trace : List Event) (p : Phase) : Prop := p.stage = .returned 0 ∨ p.stage = .tested →
    ∃ unread, .noted (.gotAuth 0 p.auth) unread ∈ attemptOf trace
  refine path.invariant holds (by simp [holds, Phase.start]) ?_ got
  intro labels state label after reached ih next got
  have more (going : label.begins = false)
      (given : state.stage = .returned 0 ∨ state.stage = .tested) :
      ∃ unread, .noted (.gotAuth 0 state.auth) unread ∈ attemptOf (labels ++ [label]) :=
    let ⟨unread, member⟩ := ih given
    ⟨unread, mem_attemptOf_append going member⟩
  cases next with
  | took | starved | answered | setUp | sent | clientFailed | serverFailed | pamStarted
  | pamAuthenticated | listened | dialled | closed => exact more rfl got
  | gotAuth =>
    rename_i unread turn
    obtain rfl : _ = (0 : Int) := by simpa using got
    exact ⟨_, mem_attemptOf_last rfl⟩
  | loginDisabledTest turn => exact more rfl (.inl turn)
  | inAuthenticated =>
    dsimp only at got
    split at got <;> simp at got
  | _ => simp at got

/-- The credentials of this attempt: `in_get_auth` returned them, and the real server was chosen for
them, perhaps with another user name. -/
def Placed (during : List Event) (base : Auth) : Prop :=
  ∃ got unread unread', .noted (.gotAuth 0 got) unread ∈ during ∧ Phase.Locates got base ∧
    .noted (.located base) unread' ∈ during

/-- Local authentication of these credentials succeeded in this attempt, with the user name mangled
for it. -/
def Trusted (config : Config) (during : List Event) (base : Auth) : Prop :=
  ∃ auth unread, .noted (.inAuthenticated auth 1) unread ∈ during ∧
    Phase.Mangles config stateLocalAuth base auth

theorem placed_of_path (path : SessionPath config trace p) (placed : p.stage.placed) :
    Placed (attemptOf trace) p.auth := by
  let holds (trace : List Event) (p : Phase) : Prop :=
    p.stage.placed → Placed (attemptOf trace) p.auth
  refine path.invariant holds (fun start => by cases start) ?_ placed
  intro labels state label after reached ih next placed
  have more (going : label.begins = false) (given : state.stage.placed) :
      Placed (attemptOf (labels ++ [label])) state.auth :=
    let ⟨got, unread, unread', returned, located, chosen⟩ := ih given
    ⟨got, unread, unread', mem_attemptOf_append going returned, located,
      mem_attemptOf_append going chosen⟩
  cases next with
  | took | starved | answered | setUp | sent | clientFailed | serverFailed | pamStarted
  | pamAuthenticated | listened | dialled | closed => exact more rfl placed
  | located turn same =>
    obtain ⟨unread, member⟩ := got_of_path reached (.inr turn)
    exact ⟨_, unread, _, mem_attemptOf_append rfl member, same, mem_attemptOf_last rfl⟩
  | inAuthenticated turn | secured turn | outSetup turn | outAuthenticate turn =>
    exact more rfl (by simp [turn, Stage.placed])
  | opened turn | flushedServer turn =>
    exact more rfl (by rcases turn with turn | turn <;> simp [turn, Stage.placed])
  | loginDisabledTest =>
    dsimp only at placed
    split at placed <;> cases placed
  | _ => cases placed

theorem trusted_of_path (path : SessionPath config trace p) (trusted : p.stage.trusted)
    (wanted : config.opt.authenticateIn) : Trusted config (attemptOf trace) p.auth := by
  let holds (trace : List Event) (p : Phase) : Prop :=
    p.stage.trusted → Trusted config (attemptOf trace) p.auth
  refine path.invariant holds (fun start => by cases start) ?_ trusted
  intro labels state label after reached ih next trusted
  have more (going : label.begins = false) (given : state.stage.trusted) :
      Trusted config (attemptOf (labels ++ [label])) state.auth :=
    let ⟨auth, unread, member, mangled⟩ := ih given
    ⟨auth, unread, mem_attemptOf_append going member, mangled⟩
  cases next with
  | took | starved | answered | setUp | sent | clientFailed | serverFailed | pamStarted
  | pamAuthenticated | listened | dialled | closed => exact more rfl trusted
  | @inAuthenticated auth status unread turn _ mangled =>
    by_cases one : status = 1
    · subst one
      exact ⟨auth, unread, mem_attemptOf_last rfl, mangled⟩
    · simp [one, Stage.trusted] at trusted
  | secured turn | outSetup turn | outAuthenticate turn =>
    exact more rfl (by simp [turn, Stage.trusted])
  | opened turn =>
    rcases turn with turn | ⟨_, unwanted⟩
    · exact more rfl (by simp [turn, Stage.trusted])
    · simp [wanted] at unwanted
  | flushedServer turn => exact more rfl (by rcases turn with turn | turn <;>
      simp [turn, Stage.trusted])
  | loginDisabledTest =>
    dsimp only at trusted
    split at trusted <;> cases trusted
  | _ => cases trusted

/-- What an event that uses credentials requires of the events before it. -/
structure Gate (config : Config) (front : List Event) (base : Auth) : Prop where
  /-- Logins are not disabled altogether. -/
  enabled : config.opt.loginDisabled = false
  /-- Where TLS is required of the client, its connection was upgraded before the attempt, and what
  was read from it in the attempt was read after that. -/
  listen : config.opt.sslMode.has sslModeTlsListen → config.opt.sslMode.has sslModeTlsListenForce →
    ClientUpgraded (beforeAttempt front) ∧ ReadOverTls (attemptOf front)
  /-- The credentials are those of the attempt. -/
  placed : Placed (attemptOf front) base
  /-- They were authenticated locally, where that is configured. -/
  trusted : config.opt.authenticateIn → Trusted config (attemptOf front) base

/-- The gate of a phase past the test for disabled logins. -/
theorem gate_of_path (path : SessionPath config trace p) (allowed : p.stage.allowed)
    (placed : p.stage.placed)
    (trusted : config.opt.authenticateIn → p.stage.trusted) : Gate config trace p.auth := by
  have test := allowed_of_path path allowed
  simp only [loginsDisabled, Bool.or_eq_false_iff, decide_true, Bool.true_and] at test
  refine ⟨test.1, fun listen force => ?_, placed_of_path path placed,
    fun wanted => trusted_of_path path (trusted wanted) wanted⟩
  have listening : p.tlsState.has sslModeTlsListen := by
    simpa [listen, force] using test.2
  exact overTls_of_path path listening fun idle => by simp [idle, Stage.allowed] at allowed

/-- A real server is connected for credentials that pass the gate. -/
theorem opened_gated {front back : List Event} {id : IoId}
    (path : SessionPath config (front ++ .opened id :: back) p) :
    ∃ base, Gate config front base := by
  obtain ⟨before, after, reached, next, _⟩ := path.split
  cases next with
  | opened turn =>
    refine ⟨_, gate_of_path reached ?_ ?_ fun wanted => ?_⟩
    · rcases turn with turn | turn <;> simp [turn, Stage.allowed]
    · rcases turn with turn | turn <;> simp [turn, Stage.placed]
    · rcases turn with turn | ⟨_, unwanted⟩
      · simp [turn, Stage.trusted]
      · simp [wanted] at unwanted

/-- The credentials sent to the real server pass the gate, with the user name mangled for it. -/
theorem outAuthenticate_gated {front back : List Event} {auth : Auth} {unread : List Byte}
    (path : SessionPath config (front ++ .noted (.outAuthenticate auth) unread :: back) p) :
    ∃ base, Gate config front base ∧ Phase.Mangles config stateRemoteLogin base auth := by
  obtain ⟨before, after, reached, next, _⟩ := path.split
  cases next with
  | outAuthenticate turn mangled =>
    exact ⟨_, gate_of_path reached (by simp [turn, Stage.allowed]) (by simp [turn, Stage.placed])
      fun _ => by simp [turn, Stage.trusted], mangled⟩

end Paths

end Perdition
