import Perdition.Spec.Independence
import Perdition.Verif.Attempts

/-!
# Attempts do not depend on the ones before them

A round of the loop begins with no server chosen, and the port that an earlier attempt has left is
overwritten wherever a server is chosen. What a round uses is therefore the beginning of a list that
the credentials, the map and the place in the list of default servers determine.
-/
namespace Perdition

open Lib Program

/-! ## The locals at the start of a round -/

/-- No server is chosen. -/
structure LoopState.Clean (st : LoopState) : Prop where
  /-- There is no map entry. -/
  usp : st.usp = none
  /-- There is no server. -/
  servername : st.servername = none
  /-- The last server was no default. -/
  roundRobinServer : st.roundRobinServer = false

theorem cleanedUp_clean (st : LoopState) : st.cleanedUp.Clean := ⟨rfl, rfl, rfl⟩

theorem any_locating : Locating Contract.any where
  io _ _ := trivial
  closeServer := trivial
  pamStart _ := trivial
  pamAuthenticate _ _ := trivial
  exit _ := trivial
  cleanUp := trivial
  loggedIn := trivial
  map := trivial
  flush := trivial
  dial _ _ := trivial
  secure := trivial
  located _ := trivial
  inAuthenticated _ _ := trivial
  outSetup := trivial
  outAuthenticate _ := trivial

/-- A round that goes back to the start of the loop leaves no server chosen. -/
theorem attempt_clean (config : Config) {st : LoopState} (clean : st.Clean) :
    (attempt config st).Obeys Contract.any
      fun r => ∀ again, r = .inl again → again.Clean := by
  have cleaned {program : Attempt} (obeys : program.Obeys Contract.any CleanedUp) :
      program.Obeys Contract.any fun r => ∀ again, r = .inl again → again.Clean :=
    obeys_mono obeys fun r cleanedUp again same => by
      have ⟨st, same'⟩ := cleanedUp again same
      exact same' ▸ cleanedUp_clean st
  have ending := any_locating.toEnding
  refine obeys_bind_any fun _ => obeys_bind_any fun result => obeys_bind_any fun _ =>
    obeys_bind_any fun _ => ?_
  unfold dispatch
  refine obeys_ite (fun _ => exit_obeys ending _) fun _ => ?_
  refine obeys_ite (fun _ => exit_obeys ending _) fun _ => obeys_ite (fun _ => ?_) fun _ => ?_
  · refine obeys_bind_any fun _ => obeys_ite (fun _ => exit_obeys ending _) fun _ => ?_
    refine obeys_bind_any fun _ again same => ?_
    rw [← Sum.inl.inj same]
    exact ⟨clean.usp, clean.servername, clean.roundRobinServer⟩
  · refine obeys_bind_any fun _ => obeys_ite (fun _ => ?_) fun _ => ?_
    · exact obeys_bind_any fun _ => cleaned (failAttempt_obeys ending _ _ _)
    · exact cleaned (locateServer_obeys any_locating _ _)

theorem Begun.clean {config : Config} {st : LoopState} {w : World} (begun : Begun config st w) :
    st.Clean := by
  induction begun with
  | first w => exact ⟨rfl, rfl, rfl⟩
  | again before round ih => exact run_returns (attempt_clean config ih) round _ rfl

/-! ## What a round aims at -/

/-- The entry of the map for these credentials, and what the lookup makes of them. -/
def found (config : Config) (map : Option (CString → MapResult)) (auth : Auth) :
    Option (Option UserServerPort × Auth) :=
  (mangledName config auth stateGetServer).bind fun id =>
    if map.isNone ∧ !config.opt.clientServerSpecification then some (none, auth)
    else match getserver config.opt map id.name config.addresses with
      | .error _ => none
      | .ok (usp, name) => some (usp, if id.same then auth.setAuthorisationId name else auth)

/-- The locals after the lookup. -/
def LoopState.with (st : LoopState) (entry : Option UserServerPort × Auth) : LoopState :=
  { st with usp := entry.1, auth := entry.2 }

/-- What is used for the server that these locals name. -/
def target (config : Config) (st : LoopState) : List Use :=
  match st.servername with
  | none => []
  | some server =>
    if server.isEmpty then []
    else .chosen st.auth :: .dialled server (st.port.getD .empty) ::
      ((mangledName config st.auth stateRemoteLogin).map fun id =>
        Use.sent (st.auth.setAuthorisationId id.name)).toList

/-- What a round with these credentials uses, if nothing stops it. -/
def aim (config : Config) (map : Option (CString → MapResult)) (st : LoopState) (auth : Auth) :
    List Use :=
  match found config map auth with
  | none => []
  | some entry => target config (useDefaults config (useEntry config (st.with entry)))

/-- The server, the credentials, and the port where there is a server. -/
structure Alike (st st' : LoopState) : Prop where
  servername : st.servername = st'.servername
  auth : st.auth = st'.auth
  port : unset st.servername = false → st.port = st'.port

theorem target_congr {config : Config} {st st' : LoopState} (alike : Alike st st') :
    target config st = target config st' := by
  have ⟨servername, auth, port⟩ := alike
  unfold target
  rw [← servername, ← auth]
  cases named : st.servername with
  | none => rfl
  | some server =>
    cases empty : server.isEmpty with
    | true => simp only [empty, if_true]
    | false =>
      have filled : unset st.servername = false := by rw [named]; exact empty
      rw [port filled]

/-- The entry of the map sets the port with the server, so that a port left by an earlier attempt
stays only where there is no server. -/
theorem useEntry_alike (config : Config) {st st' : LoopState} (clean : st.Clean)
    (clean' : st'.Clean) (entry : Option UserServerPort × Auth) :
    Alike (useEntry config (st.with entry)) (useEntry config (st'.with entry)) := by
  have ⟨usp, auth⟩ := entry
  cases usp with
  | none =>
    refine ⟨clean.servername.trans clean'.servername.symm, rfl, fun filled => ?_⟩
    have none_ : (useEntry config (st.with (none, auth))).servername = none := clean.servername
    rw [none_] at filled
    exact absurd filled (by decide)
  | some usp =>
    unfold useEntry LoopState.with
    dsimp only
    cases usp.user with
    | none => exact ⟨rfl, rfl, fun _ => rfl⟩
    | some user =>
      dsimp only
      split <;> exact ⟨rfl, rfl, fun _ => rfl⟩

/-- The default port is that of every attempt. -/
theorem defaultPort_alike (config : Config) {st st' : LoopState} (alike : Alike st st') :
    Alike (if unset st.port then { st with port := some config.opt.outgoingPort } else st)
      (if unset st'.port then { st' with port := some config.opt.outgoingPort } else st') := by
  have ⟨servername, auth, port⟩ := alike
  have kept (st : LoopState) :
      (if unset st.port then { st with port := some config.opt.outgoingPort } else st).servername =
        st.servername ∧
      (if unset st.port then { st with port := some config.opt.outgoingPort } else st).auth =
        st.auth ∧
      (if unset st.port then { st with port := some config.opt.outgoingPort } else st).port =
        if unset st.port then some config.opt.outgoingPort else st.port := by
    split <;> exact ⟨rfl, rfl, rfl⟩
  refine ⟨?_, ?_, fun filled => ?_⟩
  · rw [(kept st).1, (kept st').1, servername]
  · rw [(kept st).2.1, (kept st').2.1, auth]
  · rw [(kept st).1] at filled
    rw [(kept st).2.2, (kept st').2.2, port filled]

/-- A default server comes with its port, too. -/
theorem useDefaults_alike (config : Config) {st st' : LoopState} (alike : Alike st st')
    (place : st.rnd = st'.rnd) (first : st.roundRobinServer = false)
    (first' : st'.roundRobinServer = false) :
    Alike (useDefaults config st) (useDefaults config st') := by
  have ⟨servername, auth, port⟩ := alike
  refine defaultPort_alike config ?_
  rw [first, first', ← servername, ← place]
  split
  · exact ⟨rfl, auth, fun _ => rfl⟩
  · exact alike

/-- The aim depends on nothing but the place in the list of default servers. -/
theorem aim_congr (config : Config) (map : Option (CString → MapResult)) {st st' : LoopState}
    (clean : st.Clean) (clean' : st'.Clean) (place : st.rnd = st'.rnd) (auth : Auth) :
    aim config map st auth = aim config map st' auth := by
  unfold aim
  cases found config map auth with
  | none => rfl
  | some entry =>
    have kept (st : LoopState) : (useEntry config (st.with entry)).rnd = st.rnd ∧
        (useEntry config (st.with entry)).roundRobinServer = st.roundRobinServer := by
      unfold useEntry
      split
      · exact ⟨rfl, rfl⟩
      · split
        · split <;> exact ⟨rfl, rfl⟩
        · exact ⟨rfl, rfl⟩
    refine target_congr (useDefaults_alike config (useEntry_alike config clean clean' entry) ?_ ?_ ?_)
    · rw [(kept st).1, (kept st').1, place]
    · exact (kept st).2.trans clean.roundRobinServer
    · exact (kept st').2.trans clean'.roundRobinServer

/-! ## What a round does -/

/-- What an operation of a round tells about it. -/
inductive Mark where
  /-- `in_get_auth` returned, with what `auth` holds then. -/
  | got (auth : Auth)
  /-- The test for disabled logins is made. -/
  | test
  /-- The client is answered that logins are disabled. -/
  | refused
  /-- Something is used for a real server. -/
  | use (what : Use)
  deriving DecidableEq

/-- What an operation tells. -/
def SessionOp.mark : SessionOp → Option Mark
  | .note (.gotAuth _ auth) => some (.got auth)
  | .note (.loginDisabledTest _) => some .test
  | .note .loginDisabled => some .refused
  | .note (.located auth) => some (.use (.chosen auth))
  | .clientOpen server port => some (.use (.dialled server port))
  | .note (.outAuthenticate auth) => some (.use (.sent auth))
  | _ => none

/-- What the operations tell. -/
def marks (ops : List SessionOp) : List Mark := ops.filterMap SessionOp.mark

theorem marks_silent {op : SessionOp} (silent : op.mark = none) (ops : List SessionOp) :
    marks (ops ++ [op]) = marks ops := by
  simp [marks, silent]

theorem marks_tells {op : SessionOp} {mark : Mark} (tells : op.mark = some mark)
    (ops : List SessionOp) : marks (ops ++ [op]) = marks ops ++ [mark] := by
  simp [marks, tells]

/-- The uses among what is told. -/
def Mark.what : Mark → Option Use
  | .use what => some what
  | _ => none

theorem uses_marks (ops : List SessionOp) :
    ops.filterMap SessionOp.use = (marks ops).filterMap Mark.what := by
  have each : SessionOp.use = fun op => op.mark.bind Mark.what := by
    funext op
    cases op with
    | note what => cases what <;> rfl
    | _ => rfl
  rw [marks, List.filterMap_filterMap, each]

theorem got_marks {auth : Auth} {ops : List SessionOp} (got : Got auth ops) :
    .got auth ∈ marks ops := by
  have ⟨status, member⟩ := got
  exact List.mem_filterMap.mpr ⟨_, member, rfl⟩

theorem accepted_marks {ops : List SessionOp} (accepted : Accepted ops) :
    .test ∈ marks ops ∧ .refused ∉ marks ops := by
  have ⟨⟨tlsState, test⟩, passed⟩ := accepted
  refine ⟨List.mem_filterMap.mpr ⟨_, test, rfl⟩, fun refused => passed ?_⟩
  have ⟨op, member, mark⟩ := List.mem_filterMap.mp refused
  have same : op = .note .loginDisabled := by
    cases op with
    | note what => cases what <;> first | rfl | cases mark
    | _ => cases mark
  exact same ▸ member

/-- What a round tells: at most the credentials; or that they were refused; or the uses, the
beginning of the aim, with the choice of the server among them unless there is none. -/
inductive Trail (aim : Auth → List Use) : List Mark → Prop where
  | nothing : Trail aim []
  | got (auth : Auth) : Trail aim [.got auth]
  | refused (auth : Auth) : Trail aim [.got auth, .test, .refused]
  | used (auth : Auth) (uses : List Use) (front : uses <+: aim auth)
    (chosen : uses = [] → aim auth = []) : Trail aim (.got auth :: .test :: uses.map .use)

/-- The operation tells nothing, and no map is looked up. -/
def silent : Contract SessionSig where
  allowed
    | .map => False
    | op => op.mark = none
  returns _ _ := True

theorem silent_ending : Ending silent where
  io _ _ := rfl
  closeServer := rfl
  pamStart _ := rfl
  pamAuthenticate _ _ := rfl
  exit _ := rfl
  cleanUp := rfl
  loggedIn := rfl

/-- Where this was told so far, and this is the map that the next lookup finds. -/
def At (map : Option (CString → MapResult)) (told : List Mark) (s : World × List SessionOp) :
    Prop :=
  s.1.map s.1.lookups = map ∧ marks s.2 = told

/-- The maps stay as they are. -/
theorem step_map (op : SessionOp) (w : World) : (World.step op w).state.map = w.map := by
  cases op with
  | io party op =>
    change (w.io party op).state.map = w.map
    unfold World.io
    cases w.channel party with
    | none => rfl
    | some ch => cases op <;> cases party <;> rfl
  | sslServerConnection =>
    change w.sslServerConnection.2.map = w.map
    unfold World.sslServerConnection
    split <;> rfl
  | sslClientConnection =>
    change w.sslClientConnection.state.map = w.map
    unfold World.sslClientConnection
    split
    · rfl
    · split <;> rfl
  | clientOpen server port =>
    change w.clientOpen.2.map = w.map
    unfold World.clientOpen
    split <;> rfl
  | closeServer =>
    change w.closeServer.map = w.map
    unfold World.closeServer
    split <;> rfl
  | pamStart user =>
    change w.nextPam.2.map = w.map
    unfold World.nextPam
    split <;> rfl
  | pamAuthenticate user passwd =>
    change w.nextPam.2.map = w.map
    unfold World.nextPam
    split <;> rfl
  | _ => rfl

/-- No lookup is made but by the operation for it. -/
theorem step_lookups {op : SessionOp} (other : op ≠ .map) (w : World) :
    (World.step op w).state.lookups = w.lookups := by
  cases op with
  | io party op =>
    change (w.io party op).state.lookups = w.lookups
    unfold World.io
    cases w.channel party with
    | none => rfl
    | some ch => cases op <;> cases party <;> rfl
  | sslServerConnection =>
    change w.sslServerConnection.2.lookups = w.lookups
    unfold World.sslServerConnection
    split <;> rfl
  | sslClientConnection =>
    change w.sslClientConnection.state.lookups = w.lookups
    unfold World.sslClientConnection
    split
    · rfl
    · split <;> rfl
  | clientOpen server port =>
    change w.clientOpen.2.lookups = w.lookups
    unfold World.clientOpen
    split <;> rfl
  | closeServer =>
    change w.closeServer.lookups = w.lookups
    unfold World.closeServer
    split <;> rfl
  | pamStart user =>
    change w.nextPam.2.lookups = w.lookups
    unfold World.nextPam
    split <;> rfl
  | pamAuthenticate user passwd =>
    change w.nextPam.2.lookups = w.lookups
    unfold World.nextPam
    split <;> rfl
  | map => exact absurd rfl other
  | _ => rfl

/-- The next lookup finds what it would have found. -/
theorem step_found {op : SessionOp} (other : op ≠ .map) (w : World) :
    (World.step op w).state.map (World.step op w).state.lookups = w.map w.lookups := by
  rw [step_map op w, step_lookups other w]

section Rounds

variable {aim : Auth → List Use} {map : Option (CString → MapResult)} {told : List Mark}

/-- Where this was told, or more that a round may tell. -/
abbrev Told (aim : Auth → List Use) (s : World × List SessionOp) : Prop := Trail aim (marks s.2)

theorem at_told {s : World × List SessionOp} (at_ : At map told s) (trail : Trail aim told) :
    Told aim s := by
  rw [Told, at_.2]
  exact trail

/-- What tells nothing leaves what was told. -/
theorem silent_at {α : Type} {program : Session α} {result : α → Prop}
    (obeys : program.Obeys silent result) (trail : Trail aim told) :
    Triple (observed World.step) (At map told) program
      (fun a s => result a ∧ At map told s) (Told aim) := by
  refine triple_of_obeys obeys (fun op allowed s at_ => observed_meets ?_) fun s at_ => ?_
  · have other : op ≠ .map := fun same => by
      subst same
      exact allowed
    have mark : op.mark = none := by
      cases op with
      | map => exact allowed.elim
      | _ => exact allowed
    have quiet : marks (s.2 ++ [op]) = told := (marks_silent mark s.2).trans at_.2
    have kept : At map told ((World.step op s.1).state, s.2 ++ [op]) :=
      ⟨(step_found other s.1).trans at_.1, quiet⟩
    have met : (World.step op s.1).Meets (fun _ w => At map told (w, s.2 ++ [op]))
        fun w => At map told (w, s.2 ++ [op]) := Outcome.meets_iff_state.mpr kept
    exact met.mono (fun _ _ kept => ⟨trivial, kept⟩) fun w kept => at_told kept trail
  · exact at_told at_ trail

/-- A place that tells something. -/
theorem note_at {what : Note} {mark : Mark} (tells : (SessionOp.note what).mark = some mark) :
    Triple (observed World.step) (At map told) (Session.note what)
      (fun _ => At map (told ++ [mark])) (Told aim) := by
  intro _ s at_
  exact ⟨at_.1, (marks_tells tells s.2).trans (congrArg (· ++ [mark]) at_.2)⟩

/-- The end of an attempt after what was told. -/
theorem ending_told {program : Attempt} (obeys : program.Obeys silent CleanedUp)
    (trail : Trail aim told) :
    Triple (observed World.step) (At map told) program (fun _ => Told aim) (Told aim) :=
  triple_mono (silent_at obeys trail) (fun _ => id) (fun _ _ both => at_told both.2 trail)
    fun _ => id

/-- A part of an attempt that tells nothing, and the rest of it. -/
theorem silent_then {β : Type} {first : Session β} {rest : β → Attempt} {result : β → Prop}
    (obeys : first.Obeys silent result) (trail : Trail aim told)
    (finish : ∀ b, result b →
      Triple (observed World.step) (At map told) (rest b) (fun _ => Told aim) (Told aim)) :
    Triple (observed World.step) (At map told) (first >>= rest) (fun _ => Told aim) (Told aim) :=
  triple_bind (silent_at obeys trail) fun b => triple_fact (finish b)

/-! ### From the connection on -/

theorem dial_at (server port : CString) :
    Triple (observed World.step) (At map told) (Session.perform (.clientOpen server port))
      (fun _ => At map (told ++ [.use (.dialled server port)])) (Told aim) := by
  intro _ s at_
  have other : SessionOp.clientOpen server port ≠ .map := nofun
  exact ⟨(step_found other s.1).trans at_.1, (marks_tells rfl s.2).trans (congrArg (· ++ [_]) at_.2)⟩

theorem quiet_step {op : SessionOp} (allowed : silent.allowed op) :
    (Session.perform op).Obeys silent fun _ => True :=
  ⟨allowed, fun _ _ => trivial⟩

theorem authenticateServer_told {config : Config} {st : LoopState} {auth : Auth} {status : Int}
    (trail : Trail aim told) (sends : Trail aim (told ++ [.use (.sent auth)])) :
    Triple (observed World.step) (At map told) (authenticateServer config st auth status)
      (fun _ => Told aim) (Told aim) := by
  refine silent_then (@quiet_step .tokenFlush rfl) trail fun _ _ => ?_
  refine triple_bind (note_at rfl) fun _ => ?_
  refine silent_then (exchange_obeys silent_ending _) sends fun result _ => ?_
  exact ending_told (finish_obeys silent_ending config st result) sends

theorem secureServer_told {config : Config} {st : LoopState} {auth : Auth} {status : Int}
    (trail : Trail aim told) (sends : Trail aim (told ++ [.use (.sent auth)])) :
    Triple (observed World.step) (At map told) (secureServer config st auth status)
      (fun _ => Told aim) (Told aim) := by
  have quits (reason : CString) : Triple (observed World.step) (At map told)
      (quitAttempt config st reason) (fun _ => Told aim) (Told aim) :=
    ending_told (quitAttempt_obeys silent_ending config st reason) trail
  have exits (status : Int) : Triple (observed World.step) (At map told)
      (Session.exit status : Attempt) (fun _ => Told aim) (Told aim) :=
    ending_told (exit_obeys silent_ending status) trail
  refine triple_ite (fun _ => quits _) fun _ => triple_ite (fun _ => exits _) fun _ => ?_
  refine triple_ite (fun _ => ?_) fun _ => triple_ite (fun _ => quits _) fun _ =>
    authenticateServer_told trail sends
  refine silent_then (@quiet_step .sslClientConnection rfl) trail fun _ _ => ?_
  exact triple_ite (fun _ => exits _) fun _ => authenticateServer_told trail sends

theorem setUpServer_told {config : Config} {st : LoopState} (trail : Trail aim told)
    (sends : ∀ id, mangledName config st.auth stateRemoteLogin = some id →
      Trail aim (told ++ [.use (.sent (st.auth.setAuthorisationId id.name))])) :
    Triple (observed World.step) (At map told) (setUpServer config st)
      (fun _ => Told aim) (Told aim) := by
  refine silent_then (mangledId_obeys silent_ending _ _ _) trail fun id named => ?_
  refine silent_then (@quiet_step (.note .outSetup) rfl) trail fun _ _ => ?_
  refine silent_then (exchange_obeys silent_ending _) trail fun result _ => ?_
  exact secureServer_told trail (sends id named)

theorem dialServer_told {config : Config} {st : LoopState} {server : CString}
    (dials : Trail aim (told ++ [.use (.dialled server (st.port.getD .empty))]))
    (sends : ∀ id, mangledName config st.auth stateRemoteLogin = some id →
      Trail aim (told ++ [.use (.dialled server (st.port.getD .empty))] ++
        [.use (.sent (st.auth.setAuthorisationId id.name))])) :
    Triple (observed World.step) (At map told) (dialServer config st server)
      (fun _ => Told aim) (Told aim) := by
  refine triple_bind (triple_mono (dial_at server (st.port.getD .empty)) (fun _ => id)
    (fun _ _ => id) fun _ => id) fun _ => ?_
  have setUp : Triple (observed World.step)
      (At map (told ++ [.use (.dialled server (st.port.getD .empty))])) (setUpServer config st)
      (fun _ => Told aim) (Told aim) := setUpServer_told dials sends
  refine triple_ite (fun _ => ending_told (failAttempt_obeys silent_ending _ _ _) dials)
    fun _ => triple_ite (fun _ => ?_) fun _ => setUp
  refine silent_then (@quiet_step .sslClientConnection rfl) dials fun _ _ => ?_
  exact triple_ite (fun _ => ending_told (exit_obeys silent_ending _) dials) fun _ => setUp

theorem authenticateLocally_told {config : Config} {st : LoopState} {server : CString}
    (trail : Trail aim told)
    (dials : Trail aim (told ++ [.use (.dialled server (st.port.getD .empty))]))
    (sends : ∀ id, mangledName config st.auth stateRemoteLogin = some id →
      Trail aim (told ++ [.use (.dialled server (st.port.getD .empty))] ++
        [.use (.sent (st.auth.setAuthorisationId id.name))])) :
    Triple (observed World.step) (At map told) (authenticateLocally config st server)
      (fun _ => Told aim) (Told aim) := by
  have dial : Triple (observed World.step) (At map told) (dialServer config st server)
      (fun _ => Told aim) (Told aim) := dialServer_told dials sends
  refine triple_ite (fun _ => ?_) fun _ => dial
  refine silent_then (mangledId_obeys silent_ending _ _ _) trail fun id _ => ?_
  refine silent_then (inAuthenticate_obeys silent_ending _ _ _) trail fun status _ => ?_
  refine silent_then (@quiet_step (.note (.inAuthenticated _ status)) rfl) trail fun _ _ => ?_
  refine triple_ite (fun _ => ending_told (cleanUpMain_obeys silent_ending _) trail) fun _ => ?_
  exact triple_ite (fun _ => ending_told (exit_obeys silent_ending _) trail) fun _ => dial

/-! ### The lookup -/

/-- The lookup, on the map that is there. -/
theorem map_at :
    Triple (observed World.step) (At map told) (Session.perform .map)
      (fun there s => there = map ∧ ∃ next, At next told s) (Told aim) := by
  intro _ s at_
  exact ⟨at_.1, _, rfl, (marks_silent rfl s.2).trans at_.2⟩

/-- The locals after the lookup, unless it does not return. -/
theorem lookUp_at (config : Config) {st : LoopState} (clean : st.Clean)
    (lost : found config map st.auth = none → Trail aim told) :
    Triple (observed World.step) (At map told) (lookUp config st)
      (fun after s => (∃ entry, found config map st.auth = some entry ∧ after = st.with entry) ∧
        ∃ next, At next told s) (Told aim) := by
  cases named : mangledName config st.auth stateGetServer with
  | none =>
    have none_ : found config map st.auth = none := by
      unfold found
      rw [named]
      rfl
    have never : (mangledId config st.auth stateGetServer).Obeys silent fun _ => False :=
      obeys_mono (mangledId_obeys silent_ending _ _ _) fun id some_ => by
        rw [named] at some_
        exact nomatch some_
    exact triple_bind (silent_at never (lost none_)) fun _ => triple_fact fun no => no.elim
  | some id =>
    have looked : found config map st.auth =
        if map.isNone ∧ !config.opt.clientServerSpecification then some (none, st.auth)
        else match getserver config.opt map id.name config.addresses with
          | .error _ => none
          | .ok (usp, name) =>
            some (usp, if id.same then st.auth.setAuthorisationId name else st.auth) := by
      unfold found
      rw [named]
      rfl
    unfold lookUp
    rw [mangledId_pure named]
    have start : Triple (observed World.step) (At map told) (pure id)
        (fun id' s => id' = id ∧ At map told s) (Told aim) := triple_pure fun s at_ => ⟨rfl, at_⟩
    refine triple_bind start fun id' => triple_fact fun same => ?_
    subst id'
    refine triple_bind map_at fun there => triple_fact fun same => ?_
    subst same
    refine triple_ite (fun unmapped => ?_) fun mapped => ?_
    · rw [if_pos unmapped] at looked
      have same : st = st.with (none, st.auth) := by rw [LoopState.with, ← clean.usp]
      exact triple_pure fun s at_ => ⟨⟨_, looked, same⟩, at_⟩
    · rw [if_neg mapped] at looked
      cases answer : getserver config.opt there id.name config.addresses with
      | error why =>
        rw [answer] at looked
        have never : (Session.fault why : Session LoopState).Obeys silent fun _ => False :=
          sessionFault_obeys silent_ending why
        exact triple_exists fun next => triple_mono (silent_at never (lost looked))
          (fun _ at_ => at_) (fun _ _ both => both.1.elim) fun _ told => told
      | ok entry =>
        rw [answer] at looked
        exact triple_pure fun s at_ => ⟨⟨_, looked, rfl⟩, at_⟩

/-- What is told about the use of the server that the locals name. -/
theorem locateServer_told {config : Config} {st : LoopState} (clean : st.Clean)
    (fits : aim st.auth = Perdition.aim config map st st.auth) :
    Triple (observed World.step) (At map [.got st.auth, .test]) (locateServer config st)
      (fun _ => Told aim) (Told aim) := by
  have lost (none_ : found config map st.auth = none) : Trail aim [.got st.auth, .test] := by
    have nowhere : aim st.auth = [] := by rw [fits, Perdition.aim, none_]
    exact .used st.auth [] (List.nil_prefix) fun _ => nowhere
  refine triple_bind (lookUp_at config clean lost) fun after =>
    triple_fact fun ⟨entry, looked, same⟩ => triple_exists fun next => ?_
  subst same
  rw [Perdition.aim, looked] at fits
  dsimp only at fits ⊢
  generalize useDefaults config (useEntry config (st.with entry)) = there at fits ⊢
  unfold target at fits
  have trail (uses : List Use) (front : uses <+: aim st.auth)
      (chosen : uses = [] → aim st.auth = []) :
      Trail aim (.got st.auth :: .test :: uses.map .use) := .used st.auth uses front chosen
  cases named : there.servername with
  | none =>
    rw [named] at fits
    exact ending_told (failAttempt_obeys silent_ending _ _ _)
      (trail [] List.nil_prefix fun _ => fits)
  | some server =>
    rw [named] at fits
    dsimp only at fits
    refine triple_ite (fun empty => ?_) fun filled => ?_
    · rw [if_pos empty] at fits
      exact ending_told (failAttempt_obeys silent_ending _ _ _)
        (trail [] List.nil_prefix fun _ => fits)
    · rw [if_neg filled] at fits
      refine triple_bind (note_at rfl) fun _ => ?_
      have front (n : Nat) : (aim st.auth).take n <+: aim st.auth := List.take_prefix n _
      refine authenticateLocally_told ?_ ?_ fun id named => ?_
      · have one := trail _ (front 1)
        rw [fits] at one
        exact one nofun
      · have two := trail _ (front 2)
        rw [fits] at two
        exact two nofun
      · have three := trail _ (front 3)
        rw [fits, named] at three
        exact three nofun

/-! ### The whole round -/

theorem dispatch_told {config : Config} {st : LoopState} (status : Int) (clean : st.Clean)
    (fits : aim st.auth = Perdition.aim config map st st.auth) :
    Triple (observed World.step) (At map [.got st.auth]) (dispatch config st status)
      (fun _ => Told aim) (Told aim) := by
  have trail : Trail aim [.got st.auth] := .got st.auth
  have exits (status : Int) : Triple (observed World.step) (At map [.got st.auth])
      (Session.exit status : Attempt) (fun _ => Told aim) (Told aim) :=
    ending_told (exit_obeys silent_ending status) trail
  refine triple_ite (fun _ => exits _) fun _ => triple_ite (fun _ => exits _) fun _ => ?_
  refine triple_ite (fun _ => ?_) fun _ => ?_
  · refine silent_then (@quiet_step .sslServerConnection rfl) trail fun _ _ => ?_
    refine triple_ite (fun _ => exits _) fun _ => ?_
    refine silent_then (@quiet_step (.note .starttls) rfl) trail fun _ _ => ?_
    exact triple_pure fun s at_ => at_told at_ trail
  · refine triple_bind (note_at rfl) fun _ => triple_ite (fun _ => ?_) fun _ => ?_
    · refine triple_bind (note_at rfl) fun _ => ?_
      exact ending_told (failAttempt_obeys silent_ending _ _ _) (.refused st.auth)
    · exact locateServer_told clean fits

end Rounds

/-- A round tells the beginning of its aim. -/
theorem attempt_told (config : Config) (map : Option (CString → MapResult)) {st : LoopState}
    (clean : st.Clean) :
    Triple (observed World.step) (At map []) (attempt config st)
      (fun _ => Told (aim config map st)) (Told (aim config map st)) := by
  have trail : Trail (aim config map st) [] := .nothing
  refine silent_then (@quiet_step (.note (.inGetAuth st.tlsState)) rfl) trail fun _ _ => ?_
  refine silent_then (client_obeys silent_ending _) trail fun result _ => ?_
  refine silent_then (@quiet_step .tokenFlush rfl) trail fun _ _ => ?_
  refine triple_bind (note_at rfl) fun _ => ?_
  have clean' : ({ st with
      auth := result.auth.getD st.auth
      clientTag := if result.tag.isSome then result.tag else st.clientTag } : LoopState).Clean :=
    ⟨clean.usp, clean.servername, clean.roundRobinServer⟩
  exact dispatch_told result.status clean' (aim_congr config map clean clean' rfl _)

theorem roundOps_told (config : Config) (fuel : Nat) {st : LoopState} (w : World)
    (clean : st.Clean) :
    Trail (aim config (w.map w.lookups) st) (marks (roundOps config fuel st w)) := by
  have told := attempt_told config (w.map w.lookups) clean fuel (w, []) ⟨rfl, rfl⟩
  exact Outcome.meets_iff_state.mp told

/-! ## The result -/

/-- What a round that got these credentials uses: the beginning of the aim, and all of nothing only
where the aim is nothing, unless the login is not accepted. -/
theorem roundUses_aim {config : Config} {fuel : Nat} {st : LoopState} {w : World} {auth : Auth}
    (clean : st.Clean) (got : Got auth (roundOps config fuel st w)) :
    roundUses config fuel st w <+: aim config (w.map w.lookups) st auth ∧
      (Accepted (roundOps config fuel st w) → roundUses config fuel st w = [] →
        aim config (w.map w.lookups) st auth = []) := by
  have told := roundOps_told config fuel w clean
  have mark := got_marks got
  unfold roundUses
  rw [uses_marks]
  generalize marked : marks (roundOps config fuel st w) = told' at told mark
  cases told with
  | nothing => nomatch mark
  | got auth' => exact ⟨List.nil_prefix, fun accepted => absurd (accepted_marks accepted).1 (by
      rw [marked]
      simp)⟩
  | refused auth' => exact ⟨List.nil_prefix, fun accepted => absurd (accepted_marks accepted).2 (by
      rw [marked]
      simp)⟩
  | used auth' uses front chosen =>
    have same : auth = auth' := by
      have either : auth = auth' ∨ Mark.got auth ∈ uses.map Mark.use := by simpa using mark
      exact either.resolve_right fun member => by
        have ⟨use, _, no⟩ := List.mem_map.mp member
        cases no
    have kept : (Mark.got auth' :: .test :: uses.map Mark.use).filterMap Mark.what = uses :=
      (List.filterMap_map ..).trans (List.filterMap_some ..)
    rw [kept, same]
    exact ⟨front, fun _ => chosen⟩

/-- Two rounds that `in_get_auth` gives the same credentials, after whatever attempts failed before,
with the same map and the same place in the list of default servers: as far as both go, they use the
same server, port, user names and passwords; and where both are accepted, both or none of them
choose a server. -/
theorem attempts_independent {config : Config} {fuel₁ fuel₂ : Nat} {st₁ st₂ : LoopState}
    {w₁ w₂ : World} {auth : Auth} (begun₁ : Begun config st₁ w₁) (begun₂ : Begun config st₂ w₂)
    (place : st₁.rnd = st₂.rnd) (map : w₁.map w₁.lookups = w₂.map w₂.lookups)
    (got₁ : Got auth (roundOps config fuel₁ st₁ w₁))
    (got₂ : Got auth (roundOps config fuel₂ st₂ w₂)) :
    (roundUses config fuel₁ st₁ w₁ <+: roundUses config fuel₂ st₂ w₂ ∨
      roundUses config fuel₂ st₂ w₂ <+: roundUses config fuel₁ st₁ w₁) ∧
    (Accepted (roundOps config fuel₁ st₁ w₁) → Accepted (roundOps config fuel₂ st₂ w₂) →
      (roundUses config fuel₁ st₁ w₁ = [] ↔ roundUses config fuel₂ st₂ w₂ = [])) := by
  have ⟨front₁, chosen₁⟩ := roundUses_aim begun₁.clean got₁
  have ⟨front₂, chosen₂⟩ := roundUses_aim begun₂.clean got₂
  rw [map, aim_congr config _ begun₁.clean begun₂.clean place] at front₁ chosen₁
  refine ⟨List.prefix_or_prefix_of_prefix front₁ front₂, fun accepted₁ accepted₂ => ?_⟩
  constructor
  · intro nothing
    rw [chosen₁ accepted₁ nothing] at front₂
    exact List.prefix_nil.mp front₂
  · intro nothing
    rw [chosen₂ accepted₂ nothing] at front₁
    exact List.prefix_nil.mp front₁

/-- The locals and the world after a round that goes back to the start of the loop. -/
def roundAgain (config : Config) (fuel : Nat) (st : LoopState) (w : World) :
    Option (LoopState × World) :=
  match Session.run (attempt config st) fuel w with
  | .done (.inl again) w' => some (again, w')
  | _ => none

theorem Begun.roundAgain {config : Config} {fuel : Nat} {st : LoopState} {w : World}
    {after : LoopState × World} (begun : Begun config st w)
    (round : roundAgain config fuel st w = some after) : Begun config after.1 after.2 := by
  unfold Perdition.roundAgain at round
  split at round
  · rename_i again w' ran
    rw [← Option.some.inj round]
    exact begun.again ran
  · nomatch round

/-- The maps of a run stay as they are. -/
theorem roundAgain_map {config : Config} {fuel : Nat} {st : LoopState} {w : World}
    {after : LoopState × World} (round : roundAgain config fuel st w = some after) :
    after.2.map = w.map := by
  have kept : (Session.run (attempt config st) fuel w).state.map = w.map :=
    run_invariant _ (fun op w' same => (step_map op w').trans same) fuel w rfl
  unfold roundAgain at round
  split at round
  · rename_i again w' ran
    rw [ran] at kept
    rw [← Option.some.inj round]
    exact kept
  · nomatch round

/-- A client that sends these lines, where the map knows one user and no server can be reached. -/
def triedLines (lines : List String) : World :=
  { World.accepted (lines.map bytes) [] [none, none] with
    map := fun _ => some fun user =>
      if user = lit "a" then .entry 0 (lit "other:111") else .failed (-2) }

deriving instance DecidableEq for SessionOp

/-- The round after the one in which the login as the user with another server failed. -/
def triedAgain : LoopState × World :=
  (roundAgain (Config.sample .pop3) 50 (LoopState.start (Config.sample .pop3))
    (triedLines ["USER a\r\n", "PASS b\r\n", "USER u\r\n", "PASS p\r\n"])).getD
      (LoopState.start (Config.sample .pop3), triedLines [])

theorem triedAgain_round : roundAgain (Config.sample .pop3) 50
    (LoopState.start (Config.sample .pop3))
    (triedLines ["USER a\r\n", "PASS b\r\n", "USER u\r\n", "PASS p\r\n"]) = some triedAgain := by
  have again : (roundAgain (Config.sample .pop3) 50 (LoopState.start (Config.sample .pop3))
      (triedLines ["USER a\r\n", "PASS b\r\n", "USER u\r\n", "PASS p\r\n"])).isSome := by
    decide +kernel
  exact (Option.some_get again).symm.trans (congrArg some (Option.get_eq_getD _))

/-- A client that logs in after it failed as a user with another server and port, and a client that
logs in at once, are connected to the same server and port. -/
theorem attempts_independent_retried : triedAgain.1.port = some (lit "111") ∧
    (roundUses (Config.sample .pop3) 50 triedAgain.1 triedAgain.2 <+:
        roundUses (Config.sample .pop3) 50 (LoopState.start (Config.sample .pop3))
          (triedLines ["USER u\r\n", "PASS p\r\n"]) ∨
      roundUses (Config.sample .pop3) 50 (LoopState.start (Config.sample .pop3))
          (triedLines ["USER u\r\n", "PASS p\r\n"]) <+:
        roundUses (Config.sample .pop3) 50 triedAgain.1 triedAgain.2) := by
  refine ⟨by decide +kernel, ?_⟩
  have begun := (Begun.first (triedLines _)).roundAgain triedAgain_round
  have map : triedAgain.2.map = fun _ => some fun user =>
      if user = lit "a" then .entry 0 (lit "other:111") else .failed (-2) :=
    roundAgain_map triedAgain_round
  exact (attempts_independent begun (.first _) (by decide +kernel) (by rw [map]; rfl)
    (⟨0, by decide +kernel⟩ : Got (.setPwd (some (lit "u")) (some (lit "p"))) _)
    ⟨0, by decide +kernel⟩).1

end Perdition
