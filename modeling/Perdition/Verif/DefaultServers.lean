import Perdition.DefaultServer
import Perdition.Lib.Turns
import Perdition.Verif.Precedence

/-!
# Default servers in turn

The servers of `outgoing_server` are taken cyclically, unless the list is empty, is longer than an
`int` counts or the counter starts at the largest `int`.
-/
namespace Perdition

open Lib

/-! ## One attempt -/

variable {config : Config} {servers : List UserServerPort}

/-- No default is taken. -/
theorem defaultServer_kept {servers : Option (List UserServerPort)} {st : LoopState}
    (kept : fallsBack servers st = false) : defaultServer servers st = .ok st :=
  if_neg (by simp [kept])

/-- The next default is taken, if there is one. -/
theorem defaultServer_taken {st : LoopState} (falls : fallsBack (some servers) st = true) :
    defaultServer (some servers) st = match Turns.next intMax servers.length st.rnd with
      | some rnd => .ok (st.takeDefault servers rnd)
      | none => .error (if intMax ≤ st.rnd then .overflow else .divisionByZero) := by
  rw [defaultServer, if_pos falls, Option.getD_some]
  by_cases large : intMax ≤ st.rnd
  · have stop : Turns.next intMax servers.length st.rnd = none :=
      if_neg fun fits => Nat.not_lt.mpr large fits.1
    rw [stop]
    simp [large]
  · by_cases nothing : servers.length = 0
    · have stop : Turns.next intMax servers.length st.rnd = none :=
        if_neg fun fits => Nat.ne_of_gt fits.2 nothing
      rw [stop]
      simp [large, nothing]
    · have step : Turns.next intMax servers.length st.rnd = some ((st.rnd + 1) % servers.length) :=
        if_pos ⟨Nat.not_le.mp large, Nat.pos_of_ne_zero nothing⟩
      rw [step]
      simp only [if_neg large, if_neg nothing]

/-- Where the arithmetic has a result, it is what the attempt of the main loop computes. -/
theorem defaultServer_useDefaults {servers : Option (List UserServerPort)} {st chosen : LoopState}
    (same : config.opt.outgoingServer = servers.getD [])
    (chooses : defaultServer servers st = .ok chosen) :
    useDefaults config st = if unset chosen.port then
      { chosen with port := some config.opt.outgoingPort } else chosen := by
  cases falls : fallsBack servers st with
  | false =>
    rw [defaultServer_kept falls] at chooses
    obtain rfl := Except.ok.inj chooses
    have keeps : ((unset st.servername || st.roundRobinServer) &&
        !config.opt.outgoingServer.isEmpty) = false := by
      cases servers with
      | none => simp [same]
      | some list =>
        have none_ : (unset st.servername || st.roundRobinServer) = false := by
          simpa [fallsBack] using falls
        rw [none_]
        rfl
    rw [useDefaults, keeps]
    rfl
  | true =>
    cases servers with
    | none => simp [fallsBack] at falls
    | some list =>
      rw [defaultServer_taken falls] at chooses
      cases step : Turns.next intMax list.length st.rnd with
      | none =>
        rw [step] at chooses
        cases chooses
      | some rnd =>
        rw [step] at chooses
        obtain rfl := Except.ok.inj chooses
        rw [Turns.next] at step
        split at step
        · rename_i fits
          have other : ¬ st.rnd = 2 ^ 31 - 1 := fun largest => by
            rw [largest, intMax] at fits
            exact absurd fits.1 (lt_irrefl _)
          have filled : list.isEmpty = false := by
            rw [List.isEmpty_eq_false_iff]
            exact List.length_pos_iff.mp fits.2
          have takes : ((unset st.servername || st.roundRobinServer) && !list.isEmpty) = true := by
            rw [filled]
            simpa [fallsBack] using falls
          have next : nextServer st.rnd list.length = rnd := by
            rw [nextServer, if_neg other]
            exact Option.some.inj step
          rw [Option.getD_some] at same
          rw [useDefaults, same, takes, if_pos rfl, next]
          rfl
        · cases step

/-! ## Many attempts -/

/-- Some of the attempts take a default, and their indexes are what the counter visits. Without
servers in the map all of them do. -/
theorem attemptServers_visit (founds : List (Option UserServerPort)) (st : LoopState) :
    ∃ n, ((∀ found ∈ founds, found = some ⟨none, none, none⟩) → n = founds.length) ∧
      (∀ places, Turns.visit intMax servers.length st.rnd n = some places →
        ∃ last, attemptServers config (some servers) st founds = .ok (last, places)) ∧
      (Turns.visit intMax servers.length st.rnd n = none →
        ∃ why, attemptServers config (some servers) st founds = .error why) := by
  induction founds generalizing st with
  | nil =>
    refine ⟨0, fun _ => rfl, fun places same => ⟨st, ?_⟩,
      fun none_ => absurd none_ (Option.some_ne_none _)⟩
    rw [← Option.some.inj same]
    rfl
  | cons found founds ih =>
    have start : (useEntry config { st with usp := found }).rnd = st.rnd := by
      unfold useEntry
      cases found with
      | none => rfl
      | some usp =>
        cases usp with
        | mk user server port =>
          cases user with
          | none => rfl
          | some user =>
            dsimp only
            split <;> rfl
    have serverless : found = some ⟨none, none, none⟩ →
        fallsBack (some servers) (useEntry config { st with usp := found }) = true := by
      rintro rfl
      rfl
    rw [attemptServers]
    generalize useEntry config { st with usp := found } = here at start serverless
    rw [← start]
    cases falls : fallsBack (some servers) here with
    | false =>
      obtain ⟨n, _, runs, stops⟩ := ih here.cleanedUp
      refine ⟨n, fun all => ?_, fun places same => ?_, fun none_ => ?_⟩
      · have always := serverless (all found (List.mem_cons_self ..))
        rw [falls] at always
        cases always
      · obtain ⟨last, later⟩ := runs places same
        refine ⟨last, ?_⟩
        simp only [defaultServer_kept falls, Bind.bind, Except.bind, later]
        rfl
      · obtain ⟨why, later⟩ := stops none_
        exact ⟨why, by simp only [defaultServer_kept falls, Bind.bind, Except.bind, later]⟩
    | true =>
      simp only [defaultServer_taken falls]
      cases step : Turns.next intMax servers.length here.rnd with
      | none =>
        refine ⟨founds.length + 1, fun _ => rfl, fun places same => ?_, fun _ => ⟨_, rfl⟩⟩
        rw [Turns.visit, step] at same
        cases same
      | some rnd =>
        obtain ⟨n, count, runs, stops⟩ := ih (here.takeDefault servers rnd).cleanedUp
        refine ⟨n + 1, fun all => ?_, fun places same => ?_, fun none_ => ?_⟩
        · exact congrArg (· + 1) (count fun other inside =>
            all other (List.mem_cons_of_mem _ inside))
        · rw [Turns.visit, step, Option.bind_eq_bind, Option.bind_some] at same
          obtain ⟨rest, visited, whole⟩ := Option.bind_eq_some_iff.mp same
          obtain ⟨last, later⟩ := runs rest visited
          refine ⟨last, ?_⟩
          simp only [Bind.bind, Except.bind, later]
          rw [← Option.some.inj whole]
          rfl
        · rw [Turns.visit, step, Option.bind_eq_bind, Option.bind_some] at none_
          cases visited : Turns.visit intMax servers.length rnd n with
          | some rest =>
            rw [visited] at none_
            cases none_
          | none =>
            obtain ⟨why, later⟩ := stops visited
            exact ⟨why, by simp only [Bind.bind, Except.bind, later]⟩

/-- However many attempts there are, the arithmetic has results, the indexes are in the list, and
each of them follows the one before cyclically. -/
def TakesInTurn (config : Config) (servers : List UserServerPort) (st : LoopState) : Prop :=
  ∀ founds, ∃ last indices, attemptServers config (some servers) st founds = .ok (last, indices) ∧
    indices = Turns.places servers.length st.rnd indices.length ∧ ∀ i ∈ indices, i < servers.length

theorem takesInTurn_iff (st : LoopState) : TakesInTurn config servers st ↔
    0 < servers.length ∧ servers.length ≤ intMax ∧ st.rnd < intMax := by
  rw [← Turns.visit_all_iff]
  constructor
  · intro all n
    have ⟨last, indices, run_, places, _⟩ := all (List.replicate n (some ⟨none, none, none⟩))
    have ⟨m, count, runs, stops⟩ := @attemptServers_visit config servers
      (List.replicate n (some ⟨none, none, none⟩)) st
    have same : m = n := by
      rw [count fun found inside => (List.mem_replicate.mp inside).2, List.length_replicate]
    cases visited : Turns.visit intMax servers.length st.rnd m with
    | none =>
      have ⟨why, stopped⟩ := stops visited
      rw [run_] at stopped
      cases stopped
    | some rest =>
      have ⟨last', run'⟩ := runs rest visited
      rw [run_] at run'
      have found : indices = rest := congrArg Prod.snd (Except.ok.inj run')
      have length := Turns.visit_length visited
      rw [← same, visited, ← found, places, found, length]
  · intro all founds
    have ⟨n, _, runs, _⟩ := @attemptServers_visit config servers founds st
    have ⟨last, run_⟩ := runs _ (all n)
    have filled := (Turns.visit_all_iff st.rnd).mp all
    refine ⟨last, _, run_, by rw [Turns.places_length], fun i inside => ?_⟩
    obtain ⟨k, _, rfl⟩ := List.mem_map.mp inside
    exact Nat.mod_lt _ filled.1

/-! ## The list of servers -/

/-- Only the empty string has no pieces for servers. -/
theorem splitStrServerPort_nil {optarg : CString} :
    Settings.splitStrServerPort optarg = [] ↔ optarg = .empty := by
  have some_ : optarg.content.splitOn 44 ≠ [] := List.splitOn_ne_nil _ _
  have whole : [44].intercalate (optarg.content.splitOn 44) = optarg.content :=
    List.intercalate_splitOn 44
  constructor
  · intro nothing
    rw [Settings.splitStrServerPort, Settings.pieces] at nothing
    cases split_ : optarg.content.splitOn 44 with
    | nil => exact absurd split_ some_
    | cons first rest =>
      rw [split_] at nothing whole
      cases rest with
      | nil =>
        have same : first = optarg.content := by simpa using whole
        rw [same, List.map_singleton, cstr_self, List.getLast?_singleton] at nothing
        split at nothing
        · rename_i empty_
          exact Option.some.inj empty_
        · cases nothing
      | cons second rest =>
        split at nothing <;> simp at nothing
  · rintro rfl
    decide

/-- The list of one option string, or none. -/
def FromOptionString (list : Option (List CString)) : Prop :=
  list = none ∨ ∃ optarg, list = some (Settings.splitStrServerPort optarg)

/-- What an option string leaves is a list of one. -/
theorem run_outgoingServer (build : Settings.Build) (f : Flag) (given : List Settings.Given)
    (basename : CString) :
    FromOptionString (Write.run (Settings.assignments build f given)
      (Settings.defaults build basename) (.array .outgoingServer)) := by
  refine @Write.run_invariant _ Settings.Field.Value _ (.array .outgoingServer) FromOptionString _
    (fun write inside record holds => ?_) _ (.inl rfl)
  have ⟨one, _, member⟩ := List.mem_flatMap.mp inside
  by_cases here : write.member = .array .outgoingServer
  · rcases Settings.given_member member with ⟨name, optarg, rfl, rfl⟩ | ⟨_, _, _, _, rfl⟩ | other
    · obtain rfl := Settings.Field.array.inj here
      rw [Write.apply_self]
      exact .inr ⟨optarg, rfl⟩
    · cases here
    · exact absurd here (other.1 _)
  · rw [Write.apply_other here]
    exact holds

/-- The servers that start-up leaves are those of one option string, if there are any. -/
theorem mainOptions_outgoingServer {build : Settings.Build}
    {read : CString → Option Settings.Arguments} {arguments : Settings.Arguments}
    {opt : Settings.OptionsT} (ends : Settings.mainOptions build read arguments = some opt) :
    FromOptionString (opt.values (.array .outgoingServer)) := by
  have ⟨values, loaded, same⟩ := Settings.mainOptions_loaded ends
  rw [same (.array .outgoingServer) nofun nofun]
  by_cases sets : Settings.Sets (Settings.assignments build Settings.optFileCall
      ((Settings.configuration build read arguments).takeWhile (Settings.Given.wellFormed build)))
      (.array .outgoingServer)
  · have free : ¬ Settings.Held (Settings.sources build read arguments).commandLine
        (.array .outgoingServer) := by
      rintro ⟨y, inside, _⟩
      cases inside
    rw [loaded.set _ free sets]
    exact run_outgoingServer build _ _ _
  · rw [loaded.unset _ sets]
    exact run_outgoingServer build _ _ _

/-! ## Every list of servers -/

/-- The servers of an option string are taken in turn exactly where the string is not empty, has no
more servers than an `int` counts, and `rand` does not return the largest `int`. -/
theorem attemptServers_inTurn_iff (config : Config) {opt : Options} {optarg : CString}
    {servers : List UserServerPort}
    (parsed : (Settings.splitStrServerPort optarg).map (userServerPortAssign opt) =
      servers.map .ok) (st : LoopState) :
    TakesInTurn config servers st ↔ optarg ≠ .empty ∧
      (Settings.splitStrServerPort optarg).length ≤ intMax ∧ st.rnd < intMax := by
  have length := congrArg List.length parsed
  rw [List.length_map, List.length_map] at length
  rw [takesInTurn_iff, ← length, List.length_pos_iff, ne_eq, splitStrServerPort_nil]

/-- A server of this name. -/
def serverNamed (name : String) : UserServerPort := ⟨none, some (lit name), none⟩

/-- Two servers in turn. -/
theorem attemptServers_two : TakesInTurn (Config.sample .pop3) [serverNamed "a", serverNamed "b"]
    (LoopState.start (Config.sample .pop3)) := by
  have parsed : (Settings.splitStrServerPort (lit "a,b")).map (userServerPortAssign .sample) =
      [serverNamed "a", serverNamed "b"].map .ok := by
    decide +kernel
  exact (attemptServers_inTurn_iff _ parsed _).mpr ⟨by decide, by decide +kernel, by decide⟩

/-- An empty option string is a list without servers, and the first default server divides by zero.
The largest `int` overflows. -/
theorem attemptServers_empty :
    Settings.splitStrServerPort .empty = [] ∧
      ¬ TakesInTurn (Config.sample .pop3) [] (LoopState.start (Config.sample .pop3)) ∧
      ¬ TakesInTurn (Config.sample .pop3) [serverNamed "a"]
        { LoopState.start (Config.sample .pop3) with rnd := intMax } := by
  refine ⟨by decide, fun turns => ?_, fun turns => ?_⟩
  · have ⟨last, indices, same, _⟩ := turns [none]
    cases same
  · have ⟨last, indices, same, _⟩ := turns [none]
    cases same

end Perdition
