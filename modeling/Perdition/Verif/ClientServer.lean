import Perdition.Verif.Independence
import Perdition.Verif.Mangling
import Perdition.Verif.MapEntries

/-!
# Login names with a server

`getserver` cuts the server off the string that `username_mangle` returned. This is the name in
`auth` where nothing was changed. Else it is a copy, and the name in `auth` keeps the server.
-/
namespace Perdition

open Lib Program

/-! ## Case -/

section Case

variable (opt : Options) (state : Flag)

/-- A byte in the case of the state. -/
def caseOf (b : Byte) : Byte := if opt.lowerCase.has state then toLower b else b

theorem inCase_map (text : List Byte) : inCase opt state text = text.map (caseOf opt state) := by
  unfold inCase caseOf
  split <;> simp

/-- The bytes that separate the parts of an entry are no letters. -/
theorem toLower_separators (b : Byte) :
    (toLower b = 58 ↔ b = 58) ∧ (toLower b = 91 ↔ b = 91) ∧ (toLower b = 93 ↔ b = 93) := by
  revert b
  exact byte_of_nat (by decide +kernel)

theorem caseOf_separators (b : Byte) : (caseOf opt state b = 58 ↔ b = 58) ∧
    (caseOf opt state b = 91 ↔ b = 91) ∧ (caseOf opt state b = 93 ↔ b = 93) := by
  rw [caseOf]
  split
  · exact toLower_separators b
  · exact ⟨Iff.rfl, Iff.rfl, Iff.rfl⟩

theorem toLower_again (b : Byte) : toLower (toLower b) = toLower b := by
  revert b
  exact byte_of_nat (by decide +kernel)

theorem caseOf_again (b : Byte) : caseOf opt state (caseOf opt state b) = caseOf opt state b := by
  unfold caseOf
  split
  · exact toLower_again b
  · rfl

/-- A text that occurs in another one in this case is in this case. -/
theorem case_of_part {inner text : List Byte} (inside : inner <:+: text.map (caseOf opt state)) :
    inner.map (caseOf opt state) = inner := by
  have each : ∀ b ∈ inner, caseOf opt state b = id b := by
    intro b member
    obtain ⟨c, _, rfl⟩ := List.mem_map.mp (inside.subset member)
    exact caseOf_again opt state c
  exact (List.map_congr_left each).trans (List.map_id inner)

end Case

/-- A text in the case of the lookup. -/
def cased (opt : Options) (text : CString) : CString :=
  (usernameLowerCase opt text stateGetServer).name

theorem cased_content (opt : Options) (text : CString) :
    (cased opt text).content = text.content.map (caseOf opt stateGetServer) := by
  rw [cased, usernameLowerCase_inCase, inCase_map]

/-! ## Login names -/

/-- A login name of a client that names its server: `user<delimiter>server[:port]`. -/
structure LoginName (opt : Options) where
  /-- The user. -/
  user : CString
  /-- The server, and the port if there is one. -/
  entry : MapEntry opt.domainDelimiter
  /-- They have no other user in front. -/
  bare : entry.user = none
  /-- The delimiter in front of them is the last one. -/
  last : Rightmost opt.domainDelimiter.content entry.bytes

namespace LoginName

variable {opt : Options} (login : LoginName opt)

/-- The name as the client sends it. -/
def name : CString := login.user ++ opt.domainDelimiter ++ cstr login.entry.bytes

theorem name_content : login.name.content =
    login.user.content ++ opt.domainDelimiter.content ++ login.entry.bytes := by
  rw [name, CString.content_append, CString.content_append, cstr_content login.entry.noNul]

theorem entry_bytes : login.entry.bytes = login.entry.shown ++ entryTail login.entry.port := by
  rw [MapEntry.bytes, login.bare, entryLead, List.nil_append]

/-- A server is not written as nothing. -/
theorem shown_filled : login.entry.shown ≠ [] := by
  rw [MapEntry.shown]
  cases literal : login.entry.literal with
  | true => simp
  | false => simpa using (login.entry.name literal).1

include login in
/-- The delimiter is not empty. -/
theorem delimited : opt.domainDelimiter.content ≠ [] := by
  intro nothing
  have last := login.last
  rw [nothing] at last
  have whole := last login.entry.bytes [] (by simp)
  rw [login.entry_bytes, List.append_eq_nil_iff] at whole
  exact login.shown_filled whole.1

end LoginName

/-- The port of an entry, or the default port where there is none. -/
def portOr (opt : Options) (port : Option CString) : CString :=
  if unset port then opt.outgoingPort else port.getD opt.outgoingPort

/-- The server and the port of the login name are chosen, and the user is sent. -/
structure Uses (config : Config) (login : LoginName config.opt) (next : LoopState) : Prop where
  /-- The lookup takes them from the name. -/
  entry : next.usp = some ⟨none, some (cased config.opt login.entry.server),
    login.entry.port.map (cased config.opt)⟩
  /-- The server is chosen. -/
  server : (useDefaults config (useEntry config next)).servername =
    some (cased config.opt login.entry.server)
  /-- So is the port. -/
  port : (useDefaults config (useEntry config next)).port =
    some (portOr config.opt (login.entry.port.map (cased config.opt)))
  /-- The user name for the real server is made of the user. -/
  sent : (mangledName config (useDefaults config (useEntry config next)).auth
      stateRemoteLogin).map (·.name) =
    (usernameMangle config.opt config.platform login.user stateRemoteLogin).map (·.name)

/-- This happens in every round in which a client gives the login name. -/
def ServesName (config : Config) (login : LoginName config.opt) : Prop :=
  ∀ st : LoopState, st.Clean → st.auth.getAuthorisationId = some login.name → ∀ fuel w,
    ∃ next w', Session.run (lookUp config st) fuel w = .done next w' ∧ Uses config login next

/-- No domain is added to a name with a delimiter. -/
theorem addDomain_delimited {opt : Options} {name : CString}
    (found : opt.domainDelimiter.content <:+: name.content) (platform : Platform) (state : Flag)
    (depth : Nat) : usernameAddDomain opt platform name state depth = some ⟨name, true⟩ := by
  have there : (strstr name.content opt.domainDelimiter.content).isSome = true := by
    rw [Option.isSome_iff_ne_none]
    exact fun absent => strstr_absent.mp absent found
  rw [usernameAddDomain]
  dsimp only
  rw [if_pos there]
  exact ite_self _

/-! ## The lookup -/

section Lookup

variable {config : Config}

/-- A lookup that finds an entry in the mangled name, and the name in `auth` after it. -/
theorem lookUp_run {st : LoopState} {id : Mangled}
    (on : config.opt.clientServerSpecification = true)
    (named : mangledName config st.auth stateGetServer = some id) (fuel : Nat) (w : World) :
    Session.run (lookUp config st) fuel w =
      match getserver config.opt (w.map w.lookups) id.name config.addresses with
      | .error why => Session.run (Session.fault why) fuel { w with lookups := w.lookups + 1 }
      | .ok (usp, name) => .done { st with
          usp := usp
          auth := if id.same then st.auth.setAuthorisationId name else st.auth }
        { w with lookups := w.lookups + 1 } := by
  have asks : ¬ ((w.map w.lookups).isNone = true ∧
      (!config.opt.clientServerSpecification) = true) := by
    simp [on]
  rw [Session.run, lookUp, mangledId_pure named, run_bind, run_pure, Outcome.next_done, run_bind]
  change Program.run World.step fuel (if (w.map w.lookups).isNone = true ∧
    (!config.opt.clientServerSpecification) = true then _ else _) _ = _
  rw [if_neg asks]
  cases getserver config.opt (w.map w.lookups) id.name config.addresses with
  | error why => rfl
  | ok entry => rfl

/-- The name that is looked up is the login name in the case of the lookup, which is a copy where
this is lower case. -/
theorem mangledName_lookup {auth : Auth} {login : LoginName config.opt}
    (on : config.opt.clientServerSpecification = true)
    (given : auth.getAuthorisationId = some login.name) :
    mangledName config auth stateGetServer =
      some ⟨cased config.opt login.name, !config.opt.lowerCase.has stateGetServer⟩ := by
  have stripped : usernameStrip config.opt login.name stateGetServer = ⟨login.name, true⟩ := by
    rw [usernameStrip]
    split
    · rfl
    · rw [if_pos ⟨rfl, on⟩]
  have found : config.opt.domainDelimiter.content <:+: login.name.content :=
    ⟨login.user.content, login.entry.bytes, login.name_content.symm⟩
  rw [mangledName, given, Option.bind_some, usernameMangle, stripped,
    addDomain_delimited found]
  simp only [Option.bind_eq_bind, Option.bind_some, Bool.true_and, Option.pure_def, cased]
  rw [usernameLowerCase]
  split <;> simp_all

end Lookup

/-! ## Where the name is cut -/

/-- Behind the last delimiter there is none. -/
theorem rightmost_clean {sep back : List Byte} (some_ : sep ≠ []) (last : Rightmost sep back) :
    ¬ sep <:+: back := by
  rintro ⟨front, rest, same⟩
  have whole := last (sep ++ front) rest (by rw [← same]; simp)
  exact some_ (List.append_eq_nil_iff.mp whole).1

section Cut

variable {opt : Options} {login : LoginName opt}

theorem cased_tail (port : Option CString) : entryTail (port.map (cased opt)) =
    (entryTail port).map (caseOf opt stateGetServer) := by
  cases port with
  | none => rfl
  | some port =>
    have colon := (caseOf_separators opt stateGetServer 58).1.mpr rfl
    rw [Option.map_some, entryTail, entryTail, cased_content, List.map_cons, colon]

/-- A byte that separates the parts of an entry is in a text where it is in the text in the case of
the lookup. -/
theorem separator_cased {b : Byte} (separator : b = 58 ∨ b = 91 ∨ b = 93) (text : CString) :
    b ∈ (cased opt text).content ↔ b ∈ text.content := by
  have each (c : Byte) : caseOf opt stateGetServer c = b ↔ c = b := by
    have ⟨colon, opens, closes⟩ := caseOf_separators opt stateGetServer c
    rcases separator with rfl | rfl | rfl
    · exact colon
    · exact opens
    · exact closes
  rw [cased_content, List.mem_map]
  simp only [each, exists_eq_right]

theorem cased_length (text : CString) : (cased opt text).length = text.length := by
  rw [CString.length, cased_content, List.length_map, CString.length]

/-- The server as it is written, in the case of the lookup. -/
theorem cased_shown (entry : MapEntry opt.domainDelimiter) :
    (if entry.literal then 91 :: ((cased opt entry.server).content ++ [93])
      else (cased opt entry.server).content) =
      entry.shown.map (caseOf opt stateGetServer) := by
  have ⟨_, opens, _⟩ := caseOf_separators opt stateGetServer 91
  have ⟨_, _, closes⟩ := caseOf_separators opt stateGetServer 93
  rw [MapEntry.shown, cased_content]
  split
  · simp [opens.mpr, closes.mpr]
  · rfl

variable (login)

/-- In the case of the lookup, the delimiter in front of the server is there and is the last one. -/
def StillLast : Prop :=
  inCase opt stateGetServer opt.domainDelimiter.content = opt.domainDelimiter.content ∧
    Rightmost opt.domainDelimiter.content (inCase opt stateGetServer login.entry.bytes)

variable {login}

/-- The server and the port in the case of the lookup. -/
def StillLast.entry (last : StillLast login) : MapEntry opt.domainDelimiter :=
  have clean : ¬ opt.domainDelimiter.content <:+:
      (login.entry.shown ++ entryTail login.entry.port).map (caseOf opt stateGetServer) := by
    rw [← login.entry_bytes, ← inCase_map]
    exact rightmost_clean login.delimited last.2
  { user := none
    server := cased opt login.entry.server
    literal := login.entry.literal
    port := login.entry.port.map (cased opt)
    address := fun literal => by
      have ⟨opens, closes, long⟩ := login.entry.address literal
      rw [separator_cased (by simp), separator_cased (by simp), cased_length]
      exact ⟨opens, closes, long⟩
    name := fun literal => by
      have ⟨filled, colon, opens, closes, _⟩ := login.entry.name literal
      rw [separator_cased (by simp), separator_cased (by simp), separator_cased (by simp),
        cased_content]
      refine ⟨by simpa using filled, colon, opens, closes, fun inside => clean ?_⟩
      rw [MapEntry.shown, if_neg (by simp [literal]), List.map_append]
      exact inside.trans (List.prefix_append ..).isInfix
    plainPort := fun p port => by
      obtain ⟨q, given, rfl⟩ := Option.map_eq_some_iff.mp port
      have ⟨colon, closes, _⟩ := login.entry.plainPort q given
      rw [separator_cased (by simp), separator_cased (by simp), cased_content]
      refine ⟨colon, closes, fun inside => clean ?_⟩
      rw [given, entryTail, List.map_append, List.map_cons]
      exact inside.trans ((List.suffix_cons ..).trans (List.suffix_append ..)).isInfix }

theorem StillLast.entry_bytes (last : StillLast login) :
    last.entry.bytes = login.entry.bytes.map (caseOf opt stateGetServer) := by
  rw [login.entry_bytes, List.map_append, ← cased_shown, ← cased_tail]
  rfl

/-- They are taken from the text. -/
theorem StillLast.assign (last : StillLast login) :
    userServerPortAssign opt (cstr (login.entry.bytes.map (caseOf opt stateGetServer))) =
      .ok ⟨none, some (cased opt login.entry.server), login.entry.port.map (cased opt)⟩ := by
  have clean := rightmost_clean login.delimited last.2
  rw [inCase_map, ← last.entry_bytes] at clean
  rw [← last.entry_bytes]
  refine (MapEntry.assign_iff login.delimited last.entry).mpr ⟨fun inside => clean ?_, fun _ => ?_⟩
  · have whole : [] ++ last.entry.shown ++ entryTail last.entry.port = last.entry.bytes := rfl
    exact inside.trans ⟨_, _, whole⟩
  · refine ⟨?_, fun _ _ => List.not_mem_nil⟩
    rintro front back ⟨same, _⟩
    simp [StillLast.entry, entryLead] at same

theorem cased_name (login : LoginName opt) : (cased opt login.name).content =
    login.user.content.map (caseOf opt stateGetServer) ++
      opt.domainDelimiter.content.map (caseOf opt stateGetServer) ++
        login.entry.bytes.map (caseOf opt stateGetServer) := by
  rw [cased_content, login.name_content, List.map_append, List.map_append]

/-- Where the delimiter is found, the entry is parsed from what follows it. -/
theorem getserver_specified (on : opt.clientServerSpecification = true)
    (map : Option (CString → MapResult)) {user : CString} (addresses : Addresses) {place : Nat}
    (found : strrstr user.content opt.domainDelimiter.content = some place) :
    getserver opt map user addresses =
      (userServerPortAssign opt
        (cstr (user.content.drop (place + opt.domainDelimiter.length)))).map fun usp =>
          (some usp, cstr (user.content.take place)) := by
  unfold getserver
  simp only [if_pos on, found]
  cases userServerPortAssign opt
    (cstr (user.content.drop (place + opt.domainDelimiter.length))) <;> rfl

/-- The name is cut in front of the server. -/
theorem StillLast.getserver (last : StillLast login) (on : opt.clientServerSpecification = true)
    (map : Option (CString → MapResult)) (addresses : Addresses) :
    Perdition.getserver opt map (cased opt login.name) addresses =
      .ok (some ⟨none, some (cased opt login.entry.server), login.entry.port.map (cased opt)⟩,
        cased opt login.user) := by
  have delimiter := last.1
  rw [inCase_map] at delimiter
  have text := cased_name login
  rw [delimiter] at text
  have behind := last.2
  rw [inCase_map] at behind
  have found := (strrstr_rightmost login.delimited (cased opt login.user).content _).mpr behind
  rw [cased_content, ← text] at found
  rw [getserver_specified on map addresses found, text, CString.length, ← List.length_append,
    List.drop_left, last.assign, List.append_assoc, List.take_left, ← cased_content, cstr_self]
  rfl

/-- An entry without a user is its text, up to the brackets of the server. -/
theorem assign_lengths {text server : CString} {port : Option CString}
    (parsed : userServerPortAssign opt text = .ok ⟨none, some server, port⟩) :
    ∃ shown, shown <+: text.content ∧ text.length = shown.length + (entryTail port).length ∧
      (shown = server.content ∨ server.length + 2 ≤ shown.length) := by
  rw [userServerPortAssign_eq, Except.map_eq_ok] at parsed
  obtain ⟨raw, fixed, same⟩ := parsed
  rw [UserServerPort.mk.injEq, Option.some.injEq] at same
  obtain ⟨user, rfl, rfl⟩ := same
  have whole : (splitServer opt (entryFront text.content)).2 = entryFront text.content := by
    rw [splitServer] at user ⊢
    split at user
    · cases user
    · rfl
  have front : entryFront text.content <+: text.content := by
    rw [entryFront]
    split
    · exact List.prefix_rfl
    · exact List.take_prefix ..
  have noNul : 0 ∉ entryFront text.content := fun nul => text.noNul (front.subset nul)
  rw [whole] at fixed
  refine ⟨entryFront text.content, front, ?_, ?_⟩
  · rw [entryFront]
    cases colon : (portPlace text.content).2 with
    | none => rfl
    | some place =>
      have inside := portPlace_inside colon
      have rest : 0 ∉ text.content.drop (place + 1) := fun nul =>
        text.noNul (List.mem_of_mem_drop nul)
      rw [Option.map_some, entryTail, List.length_cons, cstr_content rest, List.length_take,
        List.length_drop, CString.length]
      omega
  · split at fixed
    · rcases fixIpv6Literal_ok fixed with ⟨_, rfl⟩ | ⟨back, same, _⟩
      · exact .inl (cstr_content noNul).symm
      · have clean := fixIpv6Literal_noNul noNul fixed
        have length := congrArg List.length same
        rw [List.length_append, List.length_cons, List.length_cons] at length
        rw [CString.length, cstr_content clean]
        exact .inr (by omega)
    · injection fixed with fixed
      rw [← fixed]
      exact .inl (cstr_content noNul).symm

/-- A shorter end of the server and the port is no text for them. -/
theorem assign_shorter {k : Nat} (shorter : 0 < k) (some_ : k ≤ login.entry.bytes.length)
    (parsed : userServerPortAssign opt
        (cstr ((login.entry.bytes.map (caseOf opt stateGetServer)).drop k)) =
      .ok ⟨none, some (cased opt login.entry.server), login.entry.port.map (cased opt)⟩) :
    False := by
  have noNul : 0 ∉ (login.entry.bytes.map (caseOf opt stateGetServer)).drop k := by
    have clean : 0 ∉ (cased opt (cstr login.entry.bytes)).content := CString.noNul _
    rw [cased_content, cstr_content login.entry.noNul] at clean
    exact fun nul => clean (List.mem_of_mem_drop nul)
  obtain ⟨shown, front, length, server⟩ := assign_lengths parsed
  rw [CString.length, cstr_content noNul, List.length_drop, List.length_map, login.entry_bytes,
    List.length_append, cased_tail, List.length_map] at length
  rw [login.entry_bytes, List.length_append] at some_
  rw [cased_length] at server
  cases literal : login.entry.literal with
  | false =>
    have whole : login.entry.shown = login.entry.server.content := by
      rw [MapEntry.shown, if_neg (by simp [literal])]
    rw [whole] at length some_
    rcases server with rfl | long
    · rw [cased_content, List.length_map] at length
      omega
    · rw [CString.length] at long
      omega
  | true =>
    have ⟨_, closes, address⟩ := login.entry.address literal
    have whole : login.entry.shown = 91 :: (login.entry.server.content ++ [93]) := by
      rw [MapEntry.shown, if_pos literal]
    rw [whole, List.length_cons, List.length_append, List.length_singleton] at length some_
    rw [CString.length] at address server
    rcases server with rfl | long
    · -- the server would end in the closing bracket
      rw [cased_content, List.length_map] at length
      have two : k = 2 := by omega
      cases server : login.entry.server.content with
      | nil =>
        rw [server] at address
        cases address
      | cons c rest =>
        have other : (rest ++ [93]).map (caseOf opt stateGetServer) <+:
            (login.entry.bytes.map (caseOf opt stateGetServer)).drop k := by
          rw [login.entry_bytes, whole, server, two]
          simp
        rw [cstr_content noNul] at front
        have same := (List.prefix_of_prefix_length_le other front (by
          rw [cased_content, server]
          simp)).eq_of_length (by rw [cased_content, server]; simp)
        have bracket := (caseOf_separators opt stateGetServer 93).2.2.mpr rfl
        have inside : 93 ∈ (cased opt login.entry.server).content := by
          rw [← same, List.map_append, List.map_singleton, bracket]
          simp
        exact closes ((separator_cased (by simp) _).mp inside)
    · omega

/-- Where the server and the port are taken from the name, it was cut in front of them. -/
theorem stillLast_of_getserver (on : opt.clientServerSpecification = true) {addresses : Addresses}
    {left : CString}
    (taken : getserver opt none (cased opt login.name) addresses =
      .ok (some ⟨none, some (cased opt login.entry.server), login.entry.port.map (cased opt)⟩,
        left)) : StillLast login := by
  cases found : strrstr (cased opt login.name).content opt.domainDelimiter.content with
  | none =>
    unfold getserver at taken
    simp only [if_pos on, found] at taken
    cases taken
  | some place =>
    rw [getserver_specified on none addresses found, Except.map_eq_ok] at taken
    obtain ⟨usp, parsed, same⟩ := taken
    rw [Prod.mk.injEq, Option.some.injEq] at same
    rw [same.1] at parsed
    have ⟨occurs, last⟩ := (strrstr_iff login.delimited place).mp found
    have delimiter : opt.domainDelimiter.content.map (caseOf opt stateGetServer) =
        opt.domainDelimiter.content := by
      refine @case_of_part opt stateGetServer _ login.name.content ?_
      rw [← cased_content]
      exact occurs.isInfix.trans (List.drop_suffix ..).isInfix
    have text := cased_name login
    rw [delimiter] at text
    have room := strrstr_inside found
    rw [text, List.length_append, List.length_append] at room
    rw [text] at found parsed last
    have after : (login.user.content.map (caseOf opt stateGetServer)).length ≤ place := by
      by_contra early
      refine last (login.user.content.map (caseOf opt stateGetServer)).length (by omega) ?_
      rw [List.append_assoc, List.drop_left]
      exact List.prefix_append ..
    obtain ⟨k, rfl⟩ := Nat.exists_eq_add_of_le after
    have behind : k + opt.domainDelimiter.length = opt.domainDelimiter.length + k := Nat.add_comm ..
    rw [Nat.add_assoc, behind, ← Nat.add_assoc, CString.length, ← List.length_append,
      ← List.drop_drop, List.drop_left] at parsed
    cases k with
    | zero =>
      rw [StillLast, inCase_map, inCase_map]
      exact ⟨delimiter, (strrstr_rightmost login.delimited _ _).mp found⟩
    | succ k =>
      refine (assign_shorter (Nat.succ_pos k) ?_ parsed).elim
      simp only [List.length_map] at room
      omega

end Cut

/-! ## What is sent -/

section Sent

variable {opt : Options} {platform : Platform} {state : Flag}

/-- The name that `username_mangle` makes, from the name that was cut. -/
theorem usernameMangle_name (name : CString) :
    (usernameMangle opt platform name state).map (·.name) =
      (usernameAddDomain opt platform (usernameStrip opt name state).name state
        opt.addDomainStripDepth).map fun added => (usernameLowerCase opt added.name state).name := by
  rw [usernameMangle]
  cases usernameAddDomain opt platform (usernameStrip opt name state).name state
    opt.addDomainStripDepth <;> rfl

/-- A name with a delimiter is that of the part in front of it, with a domain added, where this is
the domain that it had, up to the case. -/
theorem addDomain_same (some_ : opt.domainDelimiter.content ≠ []) {name before : CString}
    {after : List Byte}
    (split_ : name.content = before.content ++ opt.domainDelimiter.content ++ after) :
    (usernameAddDomain opt platform name state opt.addDomainStripDepth).map
        (fun added => (usernameLowerCase opt added.name state).name) =
      (usernameAddDomain opt platform before state opt.addDomainStripDepth).map
        (fun added => (usernameLowerCase opt added.name state).name) ↔
      ∃ domain, opt.addDomain.has state = true ∧
        ¬ opt.domainDelimiter.content <:+: before.content ∧ Domain opt platform domain ∧
        inCase opt state domain = inCase opt state after := by
  have found : opt.domainDelimiter.content <:+: name.content := ⟨_, _, split_.symm⟩
  have positive := List.length_pos_iff.mpr some_
  obtain ⟨fails, adds⟩ := @usernameAddDomain_iff opt platform state before
  rw [addDomain_delimited found, Option.map_some]
  cases result : usernameAddDomain opt platform before state opt.addDomainStripDepth with
  | none =>
    obtain ⟨_, unset, unknown, _⟩ := fails.mp result
    refine iff_of_false (Option.some_ne_none _) ?_
    rintro ⟨domain, _, _, some_, _⟩
    rw [domain_iff, domainOf, unset, unknown] at some_
    cases some_
  | some added =>
    have text := withDomain_iff.mp ((adds added result _).mpr rfl)
    have contents : (usernameLowerCase opt name state).name =
        (usernameLowerCase opt added.name state).name ↔
          inCase opt state name.content = inCase opt state added.name.content := by
      rw [← usernameLowerCase_inCase, ← usernameLowerCase_inCase]
      exact ⟨congrArg CString.content, CString.ext⟩
    have longer : ∀ {text : List Byte}, text = before.content →
        inCase opt state name.content ≠ inCase opt state text := by
      rintro text rfl same
      have length := congrArg List.length same
      rw [inCase_map, inCase_map, List.length_map, List.length_map, split_, List.length_append,
        List.length_append] at length
      omega
    rw [Option.map_some, Option.some.injEq, contents]
    by_cases on : opt.addDomain.has state = true ∧
        ¬ opt.domainDelimiter.content <:+: before.content
    · rw [if_pos on] at text
      cases known : domainOf opt platform with
      | none =>
        rw [known] at text
        refine iff_of_false (longer text) ?_
        rintro ⟨domain, _, _, there, _⟩
        rw [domain_iff, known] at there
        cases there
      | some domain =>
        rw [known, Option.elim_some] at text
        rw [text, split_]
        simp only [inCase_map, List.map_append, List.append_cancel_left_eq, domain_iff, known]
        constructor
        · exact fun same => ⟨domain, on.1, on.2, rfl, same.symm⟩
        · rintro ⟨other, _, _, there, same⟩
          rw [Option.some.inj there]
          exact same.symm
    · rw [if_neg on] at text
      refine iff_of_false (longer text) ?_
      rintro ⟨domain, on₁, on₂, _⟩
      exact on ⟨on₁, on₂⟩

variable (opt platform) in
/-- The login name makes the name for the real server that its user makes: it is cut down to the
user, in which there is nothing to cut; or it goes on, behind what is left of the user, with the
domain that is added to this. -/
inductive SentAlike (login : LoginName opt) : Prop where
  /-- The server is cut off, and the user has no delimiter. -/
  | cut (strips : Strips opt stateRemoteLogin)
    (plain : ¬ opt.domainDelimiter.content <:+: login.user.content)
  /-- A domain is added to what is left of the user, which is there in what is left of the name. -/
  | added {before after domain : List Byte}
    (name : StrippedTo opt stateRemoteLogin login.name.content
      (before ++ opt.domainDelimiter.content ++ after))
    (user : StrippedTo opt stateRemoteLogin login.user.content before)
    (on : opt.addDomain.has stateRemoteLogin = true)
    (none_ : ¬ opt.domainDelimiter.content <:+: before) (some_ : Domain opt platform domain)
    (same : inCase opt stateRemoteLogin domain = inCase opt stateRemoteLogin after)

/-- Where a delimiter is left in the name, the domain decides. -/
theorem sentAlike_split {login : LoginName opt} {after : List Byte}
    (split_ : (usernameStrip opt login.name stateRemoteLogin).name.content =
      (usernameStrip opt login.user stateRemoteLogin).name.content ++
        opt.domainDelimiter.content ++ after)
    (uncut : Strips opt stateRemoteLogin → opt.domainDelimiter.content <:+: login.user.content) :
    (usernameMangle opt platform login.name stateRemoteLogin).map (·.name) =
      (usernameMangle opt platform login.user stateRemoteLogin).map (·.name) ↔
      SentAlike opt platform login := by
  rw [usernameMangle_name, usernameMangle_name, addDomain_same login.delimited split_]
  constructor
  · rintro ⟨domain, on, none_, some_, same⟩
    exact .added ((usernameStrip_iff _).mpr split_.symm) ((usernameStrip_iff _).mpr rfl) on none_
      some_ same
  · intro alike
    cases alike with
    | cut strips plain => exact absurd (uncut strips) plain
    | added name user on none_ some_ same =>
      have whole := (usernameStrip_iff _).mp name
      rw [(usernameStrip_iff _).mp user, split_, List.append_cancel_left_eq] at whole
      rw [(usernameStrip_iff _).mp user] at none_
      exact ⟨_, on, none_, some_, whole ▸ same⟩

theorem sentAlike_iff (login : LoginName opt) :
    (usernameMangle opt platform login.name stateRemoteLogin).map (·.name) =
      (usernameMangle opt platform login.user stateRemoteLogin).map (·.name) ↔
      SentAlike opt platform login := by
  by_cases strips : Strips opt stateRemoteLogin
  · have name : login.user.content =
        (usernameStrip opt login.name stateRemoteLogin).name.content := by
      refine (usernameStrip_iff _).mp ⟨fun _ => ?_, absurd strips⟩
      rw [login.name_content]
      exact .last login.delimited login.last
    cases found : strrstr login.user.content opt.domainDelimiter.content with
    | none =>
      have plain := (strrstr_none login.delimited).mp found
      have user : login.user.content =
          (usernameStrip opt login.user stateRemoteLogin).name.content :=
        (usernameStrip_iff _).mp ⟨fun _ => .absent plain, absurd strips⟩
      rw [usernameMangle_name, usernameMangle_name, ← CString.ext name, ← CString.ext user]
      exact ⟨fun _ => .cut strips plain, fun _ => rfl⟩
    | some place =>
      obtain ⟨front, back, same, _, last⟩ := strrstr_some login.delimited found
      have user : front = (usernameStrip opt login.user stateRemoteLogin).name.content := by
        refine (usernameStrip_iff _).mp ⟨fun _ => ?_, absurd strips⟩
        rw [same]
        exact .last login.delimited last
      rw [user] at same
      exact sentAlike_split (name.symm.trans same) fun _ => ⟨_, _, same.symm⟩
  · have name := (usernameStrip_iff login.name).mp ⟨fun on => absurd on strips, fun _ => rfl⟩
    have user := (usernameStrip_iff login.user).mp ⟨fun on => absurd on strips, fun _ => rfl⟩
    refine @sentAlike_split opt platform login login.entry.bytes ?_ fun on => absurd on strips
    rw [← name, ← user]
    exact login.name_content

end Sent

/-! ## The attempt -/

section Attempt

variable {config : Config}

/-- An entry with a server is what is chosen, and leaves the name in `auth`. -/
theorem chosen_entry {next : LoopState} {server : CString} {port : Option CString}
    (entry : next.usp = some ⟨none, some server, port⟩) (first : next.roundRobinServer = false)
    (filled : server.content ≠ []) :
    (useDefaults config (useEntry config next)).servername = some server ∧
      (useDefaults config (useEntry config next)).port = some (portOr config.opt port) ∧
      (useDefaults config (useEntry config next)).auth = next.auth := by
  have used : useEntry config next = { next with port := port, servername := some server } := by
    rw [useEntry, entry]
  have set : unset (some server) = false := by
    rw [unset, emptyOrNull, CString.isEmpty]
    simpa using filled
  rw [useDefaults, used]
  simp only [set, first, Bool.or_self, Bool.false_and, Bool.false_eq_true, if_false]
  rw [portOr]
  cases port with
  | none => exact ⟨rfl, rfl, rfl⟩
  | some port =>
    split
    · exact ⟨rfl, rfl, rfl⟩
    · exact ⟨rfl, rfl, rfl⟩

theorem LoginName.server_filled {opt : Options} (login : LoginName opt) :
    (cased opt login.entry.server).content ≠ [] := by
  rw [cased_content, ne_eq, List.map_eq_nil_iff]
  intro nothing
  cases literal : login.entry.literal with
  | true =>
    have long := (login.entry.address literal).2.2
    rw [CString.length, nothing] at long
    cases long
  | false => exact (login.entry.name literal).1 nothing

/-- What is left to be shown is what is sent. -/
theorem uses_iff {login : LoginName config.opt} {next : LoopState}
    (entry : next.usp = some ⟨none, some (cased config.opt login.entry.server),
      login.entry.port.map (cased config.opt)⟩) (first : next.roundRobinServer = false) :
    Uses config login next ↔ (mangledName config next.auth stateRemoteLogin).map (·.name) =
      (usernameMangle config.opt config.platform login.user stateRemoteLogin).map (·.name) := by
  have ⟨server, port, auth⟩ := @chosen_entry config _ _ _ entry first login.server_filled
  constructor
  · intro uses
    have sent := uses.sent
    rwa [auth] at sent
  · intro sent
    refine ⟨entry, server, port, ?_⟩
    rwa [auth]

/-- The cut can be made in the name in `auth` itself; or it is made in a copy, in front of the server
nevertheless, and the name with the server makes the name for the real server that the user makes. -/
inductive NameServes (config : Config) (login : LoginName config.opt) : Prop where
  /-- The lookup does not change the case. -/
  | itself (kept : config.opt.lowerCase.has stateGetServer = false)
  /-- It does. -/
  | copied (last : StillLast login) (alike : SentAlike config.opt config.platform login)

/-- The locals after a lookup that returns. -/
theorem lookUp_done {st : LoopState} {login : LoginName config.opt} {usp : Option UserServerPort}
    {left : CString} {fuel : Nat} {w : World}
    (on : config.opt.clientServerSpecification = true)
    (given : st.auth.getAuthorisationId = some login.name)
    (answer : getserver config.opt (w.map w.lookups) (cased config.opt login.name)
      config.addresses = .ok (usp, left)) :
    Session.run (lookUp config st) fuel w =
      .done (st.with (usp, if config.opt.lowerCase.has stateGetServer then st.auth
        else st.auth.setAuthorisationId left)) { w with lookups := w.lookups + 1 } := by
  rw [lookUp_run on (mangledName_lookup on given), answer]
  cases config.opt.lowerCase.has stateGetServer <;> rfl

/-- The name that is left after a lookup which finds the server. -/
theorem serves_of_last {login : LoginName config.opt}
    (on : config.opt.clientServerSpecification = true) (last : StillLast login)
    (sent : config.opt.lowerCase.has stateGetServer = true →
      SentAlike config.opt config.platform login) : ServesName config login := by
  intro st clean given fuel w
  have found := last.getserver on (w.map w.lookups) config.addresses
  refine ⟨_, _, lookUp_done on given found, (@uses_iff config login _ rfl ?_).mpr ?_⟩
  · exact clean.roundRobinServer
  dsimp only [LoopState.with]
  by_cases lower : config.opt.lowerCase.has stateGetServer = true
  · rw [if_pos lower, mangledName, given]
    exact (sentAlike_iff login).mpr (sent lower)
  · have kept : cased config.opt login.user = login.user := by
      rw [cased, usernameLowerCase, if_pos (by simpa using lower)]
    rw [if_neg lower, mangledName, Auth.getAuthorisationId_set, kept]
    rfl

/-- A login name with a server serves exactly where the lookup cuts the name in `auth` itself, or a
copy that is cut in the same place makes no difference. -/
theorem lookUp_servesName_iff (on : config.opt.clientServerSpecification = true)
    (login : LoginName config.opt) : ServesName config login ↔ NameServes config login := by
  constructor
  · intro serves
    by_cases lower : config.opt.lowerCase.has stateGetServer = true
    · -- a round in which there is no map
      let st := { LoopState.start config with auth := Auth.setPwd (some login.name) none }
      have clean : st.Clean := ⟨rfl, rfl, rfl⟩
      have given : st.auth.getAuthorisationId = some login.name := rfl
      obtain ⟨next, w, run, uses⟩ := serves st clean given 0 (World.accepted [] [] [])
      cases answer : getserver config.opt none (cased config.opt login.name)
        config.addresses with
      | error why =>
        rw [lookUp_run on (mangledName_lookup on given)] at run
        have none_ : (World.accepted [] [] []).map (World.accepted [] [] []).lookups = none := rfl
        rw [none_, answer] at run
        cases run
      | ok found =>
        obtain ⟨usp, left⟩ := found
        rw [lookUp_done on given answer, Outcome.done.injEq] at run
        obtain ⟨rfl, rfl⟩ := run
        have entry := uses.entry
        have sent := (uses_iff entry clean.roundRobinServer).mp uses
        dsimp only [LoopState.with] at entry sent
        rw [if_pos lower, mangledName, given] at sent
        rw [entry] at answer
        exact .copied (stillLast_of_getserver on answer) ((sentAlike_iff login).mp sent)
    · exact .itself (by simpa using lower)
  · intro serves
    cases serves with
    | itself kept =>
      have same (text : List Byte) : inCase config.opt stateGetServer text = text := by
        rw [inCase, if_neg (by simp [kept])]
      have last : StillLast login := ⟨same _, by rw [same]; exact login.last⟩
      exact serves_of_last on last fun lower =>
        absurd (kept.symm.trans lower) Bool.false_ne_true
    | copied last alike => exact serves_of_last on last fun _ => alike

/-- Clients may choose the server, and names are looked up in lower case and cut in these states. -/
def loweringConfig (stripDomain : Flag) : Config :=
  { Config.sample .pop3 with
    opt := { Options.sample with
      clientServerSpecification := true
      lowerCase := stateGetServer
      stripDomain := stripDomain } }

theorem mail_name : (lit "Mail").content ≠ [] ∧ 58 ∉ (lit "Mail").content ∧
    91 ∉ (lit "Mail").content ∧ 93 ∉ (lit "Mail").content ∧
    ¬ (lit "@").content <:+: (lit "Mail").content := by
  decide +kernel

theorem mail_port : 58 ∉ (lit "1143").content ∧ 93 ∉ (lit "1143").content ∧
    ¬ (lit "@").content <:+: (lit "1143").content := by
  decide +kernel

theorem mail_last : Rightmost (lit "@").content (lit "Mail:1143").content :=
  @rightmost_byte 64 (lit "Mail:1143").content (by decide +kernel)

/-- A server with a port behind a user. -/
def mailLogin (stripDomain : Flag) : LoginName (loweringConfig stripDomain).opt where
  user := lit "User"
  entry := {
    user := none
    server := lit "Mail"
    literal := false
    port := some (lit "1143")
    address := fun literal => absurd literal Bool.false_ne_true
    name := fun _ => mail_name
    plainPort := fun _ same => Option.some.inj same ▸ mail_port }
  bare := rfl
  last := mail_last

theorem mailLogin_last (stripDomain : Flag) : StillLast (mailLogin stripDomain) := by
  have on : Flag.has stateGetServer stateGetServer = true := by decide
  have lower (text : List Byte) :
      inCase (loweringConfig stripDomain).opt stateGetServer text = text.map toLower := if_pos on
  have delimiter : (lit "@").content.map toLower = (lit "@").content := by decide +kernel
  have bytes : (lit "Mail:1143").content.map toLower = (lit "mail:1143").content := by
    decide +kernel
  refine ⟨(lower _).trans delimiter, ?_⟩
  rw [lower]
  change Rightmost [64] ((lit "Mail:1143").content.map toLower)
  rw [bytes]
  exact rightmost_byte (by decide +kernel)

/-- Where the server is cut off again before the remote login, the copy makes no difference. -/
theorem lookUp_servesName_iff_mail :
    ServesName (loweringConfig stateRemoteLogin) (mailLogin stateRemoteLogin) := by
  have plain : ¬ (lit "@").content <:+: (lit "User").content := by decide +kernel
  exact (lookUp_servesName_iff rfl _).mpr (.copied (mailLogin_last _) (.cut (by
    constructor <;> decide) plain))

/-- Where it is not, the name with the server is sent. -/
theorem lookUp_lowered : ¬ ServesName (loweringConfig 0) (mailLogin 0) := by
  intro serves
  let st := { LoopState.start (loweringConfig 0) with
    auth := Auth.setPwd (some (mailLogin 0).name) none }
  have given : st.auth.getAuthorisationId = some (mailLogin 0).name := rfl
  obtain ⟨next, w, run, uses⟩ := serves st ⟨rfl, rfl, rfl⟩ given 0 (World.accepted [] [] [])
  have found := (mailLogin_last 0).getserver rfl none (loweringConfig 0).addresses
  rw [lookUp_done rfl given found, Outcome.done.injEq] at run
  obtain ⟨rfl, rfl⟩ := run
  have sent := (uses_iff rfl rfl).mp uses
  revert sent
  decide +kernel

end Attempt

end Perdition
