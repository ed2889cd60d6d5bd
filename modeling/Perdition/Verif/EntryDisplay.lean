import Perdition.ServerPort
import Perdition.Verif.MapEntries

/-!
# Displaying map entries

The text of an entry has no brackets around an address any more, so that it is not always parsed back
into the parts of the entry.
-/
namespace Perdition

open Lib.Block

/-! ## Rendering -/

/-- The string at the start of a block ends at its first NUL. -/
theorem strlenBlock_string {written : List Byte} (noNul : 0 ∉ written) (rest : List Byte) :
    strlenBlock (written ++ 0 :: rest) = some written.length :=
  findIdx?_string noNul rest

/-- The bytes of an entry with this server. -/
def entryBytes (opt : Options) (usp : UserServerPort) (server : CString) : List Byte :=
  entryLead opt usp.user ++ server.content ++ entryTail usp.port

theorem entryBytes_noNul (opt : Options) (usp : UserServerPort) (server : CString) :
    0 ∉ entryBytes opt usp server := by
  have lead : 0 ∉ entryLead opt usp.user := by
    cases usp.user with
    | none => simp [entryLead]
    | some user => simp [entryLead, user.noNul, opt.domainDelimiter.noNul]
  have tail : 0 ∉ entryTail usp.port := by
    cases usp.port with
    | none => simp [entryTail]
    | some port => simp [entryTail, port.noNul]
  simp [entryBytes, lead, server.noNul, tail]

/-- The length counts the bytes of an entry. -/
theorem userServerPortLength_bytes {opt : Options} {usp : UserServerPort} {server : CString}
    (served : usp.server = some server) :
    userServerPortLength opt (some usp) = (entryBytes opt usp server).length := by
  obtain ⟨user, _, port⟩ := usp
  cases served
  simp only [userServerPortLength, entryBytes, List.length_append]
  congr 1
  · congr 1
    cases user with
    | none => rfl
    | some user => simp [entryLead, CString.length]
  · cases port with
    | none => rfl
    | some port => simp [entryTail, CString.length]

/-- The user and the delimiter are added to a fresh string. -/
theorem displayUser_string (opt : Options) (user : Option CString) {rest : List Byte}
    (room : (entryLead opt user).length ≤ rest.length) :
    displayUser opt (0 :: rest) user =
      some (entryLead opt user ++ 0 :: rest.drop (entryLead opt user).length) := by
  cases user with
  | none => rfl
  | some user =>
    simp only [entryLead, List.length_append] at room ⊢
    rw [displayUser]
    have first := @strcat_string [] user.content rest (by simp) (by omega)
    rw [List.nil_append, List.nil_append] at first
    rw [first, Option.bind_eq_bind, Option.bind_some, strcat_string user.noNul
      (by rw [List.length_drop]; omega), List.drop_drop]

/-- The colon and the port are added to a string. -/
theorem displayPort_string {written rest : List Byte} (noNul : 0 ∉ written) (port : Option CString)
    (room : (entryTail port).length ≤ rest.length) :
    displayPort (written ++ 0 :: rest) port =
      some (written ++ entryTail port ++ 0 :: rest.drop (entryTail port).length) := by
  cases port with
  | none => simp [displayPort, entryTail]
  | some port =>
    cases rest with
    | nil => simp [entryTail] at room
    | cons old rest =>
      simp only [entryTail, List.length_cons] at room ⊢
      have ends := store_inside (written ++ [0]) rest old (0 : Byte)
      have colon := store_inside written (0 :: rest) 0 (58 : Byte)
      simp only [List.append_assoc, List.cons_append, List.nil_append, List.length_append,
        List.length_cons, List.length_nil] at ends
      rw [displayPort, strlenBlock_string noNul, Option.bind_eq_bind, Option.bind_some]
      change (store (written ++ 0 :: old :: rest) ((written.length + (0 + 1) : Nat) : Int) 0).bind
        _ = _
      rw [ends, Option.bind_some, strlenBlock_string noNul, Option.bind_eq_bind, Option.bind_some]
      rw [colon, Option.bind_some]
      have last := @strcat_string (written ++ [58]) port.content rest (by simp [noNul]) (by omega)
      simpa using last

/-- An entry is rendered into any block with room for its length and a NUL, and nothing else in the
block changes. -/
theorem userServerPortDisplay_bytes {opt : Options} {usp : UserServerPort} {server : CString}
    (served : usp.server = some server) {block : List Byte}
    (room : (entryBytes opt usp server).length < block.length) :
    userServerPortDisplay opt block (some usp) = some (entryBytes opt usp server ++
      0 :: block.drop ((entryBytes opt usp server).length + 1)) := by
  have noNul := entryBytes_noNul opt usp server
  have length : (entryBytes opt usp server).length = (entryLead opt usp.user).length +
      server.content.length + (entryTail usp.port).length := by
    rw [entryBytes, List.length_append, List.length_append]
  cases block with
  | nil => cases room
  | cons old rest =>
    rw [List.length_cons] at room
    have start := store_inside [] rest old (0 : Byte)
    rw [userServerPortDisplay]
    simp only [List.nil_append, List.length_nil] at start
    change (store (old :: rest) ((0 : Nat) : Int) 0).bind _ = _
    rw [start, Option.bind_some, displayUser_string opt usp.user (by omega), Option.bind_eq_bind,
      Option.bind_some, served, Option.bind_eq_bind, Option.bind_some]
    have lead : 0 ∉ entryLead opt usp.user := fun nul =>
      noNul (List.mem_append_left _ (List.mem_append_left _ nul))
    have middle : 0 ∉ entryLead opt usp.user ++ server.content := fun nul =>
      noNul (List.mem_append_left _ nul)
    rw [strcat_string lead (by rw [List.length_drop]; omega), Option.bind_some]
    have last := @displayPort_string _
      ((rest.drop (entryLead opt usp.user).length).drop server.content.length) middle usp.port
      (by simp only [List.length_drop]; omega)
    rw [List.drop_drop, List.drop_drop] at last
    rw [List.drop_succ_cons, length, List.drop_drop]
    exact last

/-! ## Parsing what is displayed -/

/-- The port begins right behind the brackets, or there is none and no colon behind them. -/
def PortBehind (port : Option CString) (served front back : List Byte) : Prop :=
  match port with
  | none => back.head? ≠ some 58
  | some _ => front.length + 1 = served.length

/-- The last colon is that of the port. -/
def PortLast (port : Option CString) (served : List Byte) : Prop :=
  match port with
  | none => 58 ∉ served
  | some port => 58 ∉ port.content

/-- The displayed entry is searched for its parts with success: the delimiter in front of the server
is the last one. Where the text has brackets like those of an address, the server has none in front
and the port is right behind them; elsewhere the last colon is that of the port. -/
def Redisplayed (opt : Options) (usp : UserServerPort) (server : CString) : Prop :=
  let served := entryLead opt usp.user ++ server.content
  strrstr served opt.domainDelimiter.content = usp.user.map CString.length ∧
    (∀ front back, Bracketed (entryBytes opt usp server) front back →
      server.content.head? ≠ some 91 ∧ PortBehind usp.port served front back) ∧
    ((¬ ∃ front back, Bracketed (entryBytes opt usp server) front back) →
      PortLast usp.port served)

/-- Fixing leaves a server as it is only where it has no bracket in front. -/
theorem fixIpv6Literal_self {server : List Byte} :
    fixIpv6Literal server = .ok server ↔ server.head? ≠ some 91 := by
  refine ⟨fun fixed => ?_, fixIpv6Literal_name⟩
  rcases fixIpv6Literal_ok fixed with ⟨first, _⟩ | ⟨back, same, _⟩
  · exact first
  · have lengths := congrArg List.length same
    simp only [List.length_append, List.length_cons] at lengths
    omega

/-- The last colon of a text is that of a port exactly where the port has none. -/
theorem strrchr_port {front port : List Byte} {b : Byte} :
    strrchr (front ++ b :: port) b = some front.length ↔ b ∉ port := by
  refine ⟨fun found inside => ?_, strrchr_last front⟩
  have ⟨before, behind, same, last⟩ := exists_last inside
  have later := strrchr_last (front ++ b :: before) last
  rw [List.append_assoc, List.cons_append, ← same, found, Option.some.injEq, List.length_append,
    List.length_cons] at later
  omega

/-- A displayed entry is parsed into its parts exactly where these are searched for with success. -/
theorem userServerPortAssign_redisplayed {opt : Options} {usp : UserServerPort} {server : CString}
    (served : usp.server = some server) {text : CString}
    (same : text.content = entryBytes opt usp server) :
    userServerPortAssign opt text = .ok usp ↔ Redisplayed opt usp server := by
  obtain ⟨user, _, port⟩ := usp
  cases served
  rw [userServerPortAssign_ok_iff same, same, Redisplayed]
  by_cases brackets : ∃ front back, Bracketed (entryBytes opt ⟨user, some server, port⟩ server)
      front back
  · have bracketed := brackets
    obtain ⟨front, back, found⟩ := bracketed
    rw [portPlace_bracketed found, if_pos rfl, fixIpv6Literal_self]
    dsimp only
    have place : (if back.head? = some 58 then some (front.length + 1) else none) =
        port.map (fun _ => (entryLead opt user ++ server.content).length) ↔
        PortBehind port (entryLead opt user ++ server.content) front back := by
      cases port with
      | none => simp [PortBehind]
      | some port =>
        rw [Option.map_some, PortBehind]
        constructor
        · intro colon
          split at colon
          · exact Option.some.inj colon
          · cases colon
        · intro ends
          have whole := found.1
          rw [entryBytes, entryTail, show front ++ 93 :: back = front ++ [93] ++ back by simp]
            at whole
          have behind := (List.append_inj whole (by simp [← ends])).2
          rw [← behind, List.head?_cons, if_pos rfl, ends]
    rw [place]
    constructor
    · rintro ⟨colon, splits, first⟩
      refine ⟨splits, fun front' back' other => ?_, fun none_ => absurd brackets none_⟩
      obtain ⟨fronts, backs⟩ := last_unique other.2.1 found.2.1 (other.1.symm.trans found.1)
      rw [fronts, backs]
      exact ⟨first, colon⟩
    · rintro ⟨splits, behind, _⟩
      obtain ⟨first, colon⟩ := behind front back found
      exact ⟨colon, splits, first⟩
  · rw [portPlace_plain brackets]
    dsimp only
    have place : strrchr (entryBytes opt ⟨user, some server, port⟩ server) 58 =
        port.map (fun _ => (entryLead opt user ++ server.content).length) ↔
        PortLast port (entryLead opt user ++ server.content) := by
      cases port with
      | none =>
        rw [Option.map_none, strrchr_none, entryBytes, entryTail, List.append_nil, PortLast]
      | some port => exact strrchr_port
    rw [place]
    constructor
    · rintro ⟨colon, splits, _⟩
      exact ⟨splits, fun front back found => absurd ⟨front, back, found⟩ brackets, fun _ => colon⟩
    · rintro ⟨splits, _, colon⟩
      exact ⟨colon brackets, splits, rfl⟩

/-- An entry is displayed as a text of its length, in every block with room for that and a NUL and
without any other change of the block, and the text is parsed into the entry again. -/
def DisplayRoundTrip (opt : Options) (usp : UserServerPort) : Prop :=
  ∃ text : CString, text.length = userServerPortLength opt (some usp) ∧
    (∀ block : List Byte, text.length < block.length →
      userServerPortDisplay opt block (some usp) =
        some (text.content ++ 0 :: block.drop (text.length + 1))) ∧
    userServerPortAssign opt text = .ok usp

/-- A parsed entry has a server. -/
theorem userServerPortAssign_served {opt : Options} {text : CString} {usp : UserServerPort}
    (assigned : userServerPortAssign opt text = .ok usp) : ∃ server, usp.server = some server := by
  rw [userServerPortAssign_eq, Except.map_eq_ok] at assigned
  obtain ⟨server, _, rfl⟩ := assigned
  exact ⟨cstr server, rfl⟩

/-- A parsed entry is displayed as it is, and its text is parsed into it again exactly where its parts
are searched for in the text with success. -/
theorem userServerPortDisplay_assign_iff {opt : Options} {text : CString} {usp : UserServerPort}
    (assigned : userServerPortAssign opt text = .ok usp) :
    DisplayRoundTrip opt usp ↔ ∃ server, usp.server = some server ∧ Redisplayed opt usp server := by
  have ⟨server, served⟩ := userServerPortAssign_served assigned
  have shown : (cstr (entryBytes opt usp server)).content = entryBytes opt usp server :=
    cstr_content (entryBytes_noNul opt usp server)
  have length : (cstr (entryBytes opt usp server)).length = (entryBytes opt usp server).length := by
    rw [CString.length, shown]
  constructor
  · rintro ⟨text', size, displays, back⟩
    refine ⟨server, served, ?_⟩
    -- the text is what a block with room for it shows
    have block := displays (List.replicate (text'.length + 1) 0) (by simp)
    rw [userServerPortLength_bytes served] at size
    rw [userServerPortDisplay_bytes served (by simp [size])] at block
    have same := (List.append_inj (Option.some.inj block) size.symm).1
    exact (userServerPortAssign_redisplayed served same.symm).mp back
  · rintro ⟨server', served', redisplayed⟩
    obtain rfl : server' = server := Option.some.inj (served'.symm.trans served)
    refine ⟨cstr (entryBytes opt usp server'), ?_, fun block room => ?_,
      (userServerPortAssign_redisplayed served shown).mpr redisplayed⟩
    · rw [length, userServerPortLength_bytes served]
    · rw [length] at room ⊢
      rw [shown]
      exact userServerPortDisplay_bytes served room

/-- An address with a port comes back. -/
theorem userServerPortDisplay_address : DisplayRoundTrip Options.sample
    ⟨some (lit "u"), some (lit "::1"), some (lit "143")⟩ := by
  have assigned : userServerPortAssign Options.sample (lit "u@[::1]:143") =
      .ok ⟨some (lit "u"), some (lit "::1"), some (lit "143")⟩ := by decide +kernel
  refine (userServerPortDisplay_assign_iff assigned).mpr
    ⟨lit "::1", rfl, by decide, fun front back brackets => ?_,
      fun _ => show 58 ∉ (lit "143").content by decide⟩
  have closes : 93 ∈ entryBytes Options.sample
      ⟨some (lit "u"), some (lit "::1"), some (lit "143")⟩ (lit "::1") := by
    rw [brackets.1]
    simp
  exact absurd closes (by decide)

/-- An address without a port is displayed without its brackets, and its last part is taken for a
port. -/
theorem userServerPortDisplay_bare :
    userServerPortAssign Options.sample (lit "[::1]") = .ok ⟨none, some (lit "::1"), none⟩ ∧
      ¬ DisplayRoundTrip Options.sample ⟨none, some (lit "::1"), none⟩ := by
  refine ⟨by decide +kernel, ?_⟩
  rintro ⟨text, size, displays, back⟩
  have length : text.length = 3 := size
  have block := displays [0, 0, 0, 0] (by rw [length]; decide)
  rw [show userServerPortDisplay Options.sample [0, 0, 0, 0] (some ⟨none, some (lit "::1"), none⟩) =
    some (bytes "::1" ++ [0]) by decide, length] at block
  have same := (List.append_inj (Option.some.inj block) length.symm).1
  have other : userServerPortAssign Options.sample (cstr (bytes "::1")) ≠
      .ok ⟨none, some (lit "::1"), none⟩ := by decide +kernel
  rw [same, cstr_self] at other
  exact other back

end Perdition
