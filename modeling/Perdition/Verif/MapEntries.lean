import Perdition.Verif.Rightmost

/-!
# Map entries

`user_server_port_strn_assign` looks for the port before it separates the user, so that brackets and
colons of the user are taken for those of the server.
-/
namespace Perdition

/-! ## The port -/

/-- The last closing bracket of a text, with what is before and behind it, where the first opening
bracket is far enough before it for an address. -/
def Bracketed (text front back : List Byte) : Prop :=
  text = front ++ 93 :: back ∧ 93 ∉ back ∧
    ∃ lead inner, front = lead ++ 91 :: inner ∧ 91 ∉ lead ∧ 2 ≤ inner.length

/-- A byte that occurs occurs last somewhere. -/
theorem exists_last {text : List Byte} {b : Byte} (inside : b ∈ text) :
    ∃ front back, text = front ++ b :: back ∧ b ∉ back := by
  obtain ⟨back, front, same, last⟩ := List.eq_append_cons_of_mem (List.mem_reverse.mpr inside)
  refine ⟨front.reverse, back.reverse, ?_, by simpa using last⟩
  rw [← List.reverse_reverse text, same]
  simp

/-- A text is split at a last byte in one way. -/
theorem last_unique {one other left right : List Byte} {b : Byte} (last : b ∉ left)
    (last' : b ∉ right) (same : one ++ b :: left = other ++ b :: right) :
    one = other ∧ left = right := by
  have places := strrchr_last one last
  rw [same, strrchr_last other last', Option.some.injEq] at places
  have ⟨fronts, backs⟩ := List.append_inj same places.symm
  exact ⟨fronts, (List.cons.inj backs).2⟩

/-- Behind the brackets of an address only a colon starts a port. -/
theorem portPlace_bracketed {text front back : List Byte} (brackets : Bracketed text front back) :
    portPlace text =
      (true, if back.head? = some 58 then some (front.length + 1) else none) := by
  obtain ⟨same, last, lead, inner, before, first, long⟩ := brackets
  have right : strrchr text 93 = some front.length := by rw [same]; exact strrchr_last front last
  have left : text.idxOf? 91 = some lead.length := by
    rw [same, before, List.append_assoc]
    exact idxOf?_first first _
  have far : lead.length + 2 < front.length := by
    rw [before, List.length_append, List.length_cons]
    omega
  have behind : text.drop (front.length + 1) = back := by
    rw [same, show front ++ 93 :: back = (front ++ [93]) ++ back by simp]
    exact List.drop_left' (by simp)
  simp only [portPlace, right, left, if_pos far, behind]
  by_cases colon : back.head? = some 58
  · simp [colon]
  · simp [colon]

/-- Without such brackets the last colon is that of the port. -/
theorem portPlace_plain {text : List Byte} (plain : ¬ ∃ front back, Bracketed text front back) :
    portPlace text = (false, strrchr text 58) := by
  rw [portPlace]
  by_cases closes : 93 ∈ text
  · have ⟨front, back, same, last⟩ := exists_last closes
    have right : strrchr text 93 = some front.length := by rw [same]; exact strrchr_last front last
    rw [right]
    dsimp only
    cases left : text.idxOf? 91 with
    | none => rfl
    | some place =>
      dsimp only
      rw [if_neg]
      intro far
      have ⟨bound, opens, first⟩ := List.idxOf?_eq_some_iff.mp left
      have shorter : place < front.length := by omega
      refine plain ⟨front, back, same, last, front.take place, front.drop (place + 1), ?_, ?_, ?_⟩
      · have here : front[place] = 91 := by
          rw [← opens]
          simp only [same]
          rw [List.getElem_append_left shorter]
        rw [← here, List.getElem_cons_drop, List.take_append_drop]
      · intro inside
        have ⟨j, small, found⟩ := List.getElem_of_mem inside
        rw [List.length_take] at small
        rw [List.getElem_take] at found
        refine first j (by omega) ?_
        simp only [same]
        rw [List.getElem_append_left (by omega)]
        exact found
      · rw [List.length_drop]
        omega
  · rw [strrchr_none.mpr closes]

/-- The colon of the port is a byte of the text. -/
theorem portPlace_inside {text : List Byte} {place : Nat} (colon : (portPlace text).2 = some place) :
    place < text.length := by
  by_cases brackets : ∃ front back, Bracketed text front back
  · have ⟨front, back, found⟩ := brackets
    rw [portPlace_bracketed found] at colon
    dsimp only at colon
    split at colon
    · rename_i first
      rw [← Option.some.inj colon, found.1, List.length_append, List.length_cons]
      cases back with
      | nil => cases first
      | cons b back =>
        rw [List.length_cons]
        omega
    · cases colon
  · rw [portPlace_plain brackets] at colon
    dsimp only at colon
    by_cases inside : 58 ∈ text
    · have ⟨front, back, same, last⟩ := exists_last inside
      rw [same, strrchr_last front last] at colon
      rw [← Option.some.inj colon, same, List.length_append, List.length_cons]
      omega
    · rw [strrchr_none.mpr inside] at colon
      cases colon

/-! ## The parts of an entry -/

/-- The user and the delimiter in front of a server. -/
def entryLead (opt : Options) : Option CString → List Byte
  | none => []
  | some user => user.content ++ opt.domainDelimiter.content

/-- The colon and the port behind a server. -/
def entryTail : Option CString → List Byte
  | none => []
  | some port => 58 :: port.content

/-- The address between the brackets has no more bytes than the server. -/
theorem fixIpv6Literal_ok {shown server : List Byte} (fixed : fixIpv6Literal shown = .ok server) :
    (shown.head? ≠ some 91 ∧ server = shown) ∨
      ∃ back, shown = 91 :: server ++ 93 :: back ∧ 93 ∉ server := by
  unfold fixIpv6Literal at fixed
  split at fixed
  · rename_i rest
    split at fixed
    · cases fixed
    · rename_i place found
      have ⟨bound, closes, first⟩ := List.idxOf?_eq_some_iff.mp found
      injection fixed with fixed
      rw [← fixed]
      refine .inr ⟨rest.drop (place + 1), ?_, ?_⟩
      · rw [List.cons_append, ← closes, List.getElem_cons_drop, List.take_append_drop]
      · intro inside
        have ⟨j, small, same⟩ := List.getElem_of_mem inside
        rw [List.length_take] at small
        rw [List.getElem_take] at same
        exact first j (by omega) same
  · rename_i other
    injection fixed with fixed
    refine .inl ⟨fun first => ?_, fixed.symm⟩
    cases shown with
    | nil => cases first
    | cons b rest =>
      rw [List.head?_cons, Option.some.injEq] at first
      exact other rest (by rw [first])

/-- Brackets are taken off. -/
theorem fixIpv6Literal_brackets {address : List Byte} (back : List Byte) (clean : 93 ∉ address) :
    fixIpv6Literal (91 :: address ++ 93 :: back) = .ok address := by
  rw [fixIpv6Literal.eq_def]
  simp only [List.cons_append]
  rw [idxOf?_first clean back]
  simp

/-- A server without an opening bracket in front is left as it is. -/
theorem fixIpv6Literal_name {server : List Byte} (first : server.head? ≠ some 91) :
    fixIpv6Literal server = .ok server := by
  unfold fixIpv6Literal
  split
  · exact absurd rfl first
  · rfl

theorem strrstr_inside {text sep : List Byte} {place : Nat}
    (found : strrstr text sep = some place) : place + sep.length ≤ text.length := by
  by_cases some_ : sep = []
  · simp only [strrstr, some_] at found
    split at found
    · cases found
    · rw [← Option.some.inj found, some_]
      exact Nat.zero_le _
  · obtain ⟨front, back, same, length, _⟩ := strrstr_some some_ found
    rw [same, ← length, List.length_append, List.length_append]
    omega

/-- A fixed server has no NUL. -/
theorem fixIpv6Literal_noNul {shown server : List Byte} (noNul : 0 ∉ shown)
    (fixed : fixIpv6Literal shown = .ok server) : 0 ∉ server := by
  rcases fixIpv6Literal_ok fixed with ⟨_, rfl⟩ | ⟨back, same, _⟩
  · exact noNul
  · rw [same] at noNul
    exact fun inside => noNul (List.mem_append_left _ (List.mem_cons_of_mem _ inside))

/-- The text in front of the port. -/
def entryFront (text : List Byte) : List Byte :=
  match (portPlace text).2 with
  | none => text
  | some place => text.take place

/-- The user and the server of the text in front of the port. -/
def splitServer (opt : Options) (front : List Byte) : Option CString × List Byte :=
  match strrstr front opt.domainDelimiter.content with
  | some place =>
    (some (cstr (front.take place)), front.drop (place + opt.domainDelimiter.length))
  | none => (none, front)

theorem userServerPortAssign_eq (opt : Options) (text : CString) :
    userServerPortAssign opt text =
      (if (portPlace text.content).1 then
          fixIpv6Literal (splitServer opt (entryFront text.content)).2
        else .ok (splitServer opt (entryFront text.content)).2).map fun server =>
          ⟨(splitServer opt (entryFront text.content)).1, some (cstr server),
            (portPlace text.content).2.map fun place => cstr (text.content.drop (place + 1))⟩ := by
  unfold userServerPortAssign splitServer entryFront
  rcases portPlace text.content with ⟨ipv6Literal, colon⟩
  dsimp only
  split <;> cases ipv6Literal <;> rfl

theorem Except.map_eq_ok {ε α β : Type} {f : α → β} {x : Except ε α} {b : β} :
    x.map f = .ok b ↔ ∃ a, x = .ok a ∧ f a = b := by
  cases x with
  | error e => simp [Except.map]
  | ok a => simp [Except.map]

/-- Where the delimiter in front of the server is found, the user is split off. -/
theorem splitServer_found {opt : Options} {user : Option CString} {shown : List Byte}
    (found : strrstr (entryLead opt user ++ shown) opt.domainDelimiter.content =
      user.map CString.length) :
    splitServer opt (entryLead opt user ++ shown) = (user, shown) := by
  unfold splitServer
  rw [found]
  cases user with
  | none => rfl
  | some user =>
    simp only [Option.map_some, entryLead, List.append_assoc, CString.length]
    rw [List.take_left, cstr_self, ← List.drop_drop, List.drop_left, List.drop_left]

/-- The user tells where the delimiter was found. -/
theorem splitServer_user {opt : Options} {user : Option CString} {front : List Byte}
    (noNul : 0 ∉ front) (same : (splitServer opt front).1 = user) :
    strrstr front opt.domainDelimiter.content = user.map CString.length := by
  rw [← same, splitServer]
  cases found : strrstr front opt.domainDelimiter.content with
  | none => rfl
  | some place =>
    have room := strrstr_inside found
    dsimp only
    rw [Option.map_some, CString.length, cstr_content fun nul => noNul (List.mem_of_mem_take nul),
      List.length_take]
    congr 1
    omega

/-- An entry is parsed into its parts exactly where the searches find their places. -/
theorem userServerPortAssign_ok_iff {opt : Options} {text : CString} {user : Option CString}
    {shown : List Byte} {server : CString} {port : Option CString}
    (same : text.content = entryLead opt user ++ shown ++ entryTail port) :
    userServerPortAssign opt text = .ok ⟨user, some server, port⟩ ↔
      (portPlace text.content).2 = port.map (fun _ => (entryLead opt user ++ shown).length) ∧
      strrstr (entryLead opt user ++ shown) opt.domainDelimiter.content =
        user.map CString.length ∧
      (if (portPlace text.content).1 then fixIpv6Literal shown else .ok shown) =
        .ok server.content := by
  have noNul := text.noNul
  have noNul' : 0 ∉ entryLead opt user ++ shown := by
    rw [same] at noNul
    exact fun inside => noNul (List.mem_append_left _ inside)
  -- the port is found where its colon is
  have ports : ((portPlace text.content).2.map fun place => cstr (text.content.drop (place + 1))) =
      port ↔ (portPlace text.content).2 =
        port.map (fun _ => (entryLead opt user ++ shown).length) := by
    cases colon : (portPlace text.content).2 with
    | none => cases port <;> simp
    | some place =>
      have inside := portPlace_inside colon
      cases port with
      | none => simp
      | some port =>
        rw [Option.map_some, Option.map_some, Option.some.injEq, Option.some.injEq]
        have behind : text.content.drop ((entryLead opt user ++ shown).length + 1) =
            port.content := by
          rw [same, entryTail, ← List.drop_drop, List.drop_left]
          rfl
        have length := congrArg List.length same
        rw [entryTail, List.length_append, List.length_cons] at length
        constructor
        · intro found
          have long := congrArg CString.length found
          rw [CString.length, cstr_content fun nul => noNul (List.mem_of_mem_drop nul),
            List.length_drop, CString.length] at long
          omega
        · rintro rfl
          rw [behind, cstr_self]
  rw [userServerPortAssign_eq, Except.map_eq_ok]
  -- the text in front of it is that of the user and the server
  have fronts : (portPlace text.content).2 =
      port.map (fun _ => (entryLead opt user ++ shown).length) →
        entryFront text.content = entryLead opt user ++ shown := by
    intro colon
    rw [entryFront, colon]
    cases port with
    | none => rw [Option.map_none, same, entryTail, List.append_nil]
    | some port =>
      rw [Option.map_some, same]
      exact List.take_left
  simp only [UserServerPort.mk.injEq, Option.some.injEq]
  constructor
  · rintro ⟨found, fixed, users, servers, colons⟩
    have colon := ports.mp colons
    rw [fronts colon] at fixed users
    have place := splitServer_user noNul' users
    rw [splitServer_found place] at fixed
    refine ⟨colon, place, ?_⟩
    rw [fixed, ← servers, cstr_content]
    have clean : 0 ∉ shown := fun nul => noNul' (List.mem_append_right _ nul)
    split at fixed
    · exact fixIpv6Literal_noNul clean fixed
    · injection fixed with fixed
      rw [← fixed]
      exact clean
  · rintro ⟨colon, place, fixed⟩
    rw [fronts colon, splitServer_found place]
    exact ⟨server.content, fixed, rfl, cstr_self server, ports.mpr colon⟩

/-! ## Well-formed entries -/

/-- An entry as it should be written: a server is a name or an address between brackets, and may have
a user in front and a port behind. -/
structure MapEntry (delimiter : CString) where
  /-- The user. -/
  user : Option CString
  /-- The server, without brackets. -/
  server : CString
  /-- The server is an address. -/
  literal : Bool
  /-- The port. -/
  port : Option CString
  /-- An address has no brackets within, and the shortest one is `::`. -/
  address : literal = true → 91 ∉ server.content ∧ 93 ∉ server.content ∧ 2 ≤ server.length
  /-- A name is not empty and has none of the bytes that separate the parts. -/
  name : literal = false → server.content ≠ [] ∧ 58 ∉ server.content ∧ 91 ∉ server.content ∧
    93 ∉ server.content ∧ ¬ delimiter.content <:+: server.content
  /-- Nor has a port. -/
  plainPort : ∀ p, port = some p →
    58 ∉ p.content ∧ 93 ∉ p.content ∧ ¬ delimiter.content <:+: p.content

namespace MapEntry

variable {opt : Options}

/-- The server as it is written. -/
def shown (entry : MapEntry opt.domainDelimiter) : List Byte :=
  if entry.literal then 91 :: (entry.server.content ++ [93]) else entry.server.content

/-- The bytes of an entry. -/
def bytes (entry : MapEntry opt.domainDelimiter) : List Byte :=
  entryLead opt entry.user ++ entry.shown ++ entryTail entry.port

/-- The parts of an entry are kept apart: the delimiter occurs last in front of the server. And where
the server is a name, its user has nothing like an address between brackets, unless there is no port
and no colon behind these, and no colon, unless there is a port. -/
def Separable (entry : MapEntry opt.domainDelimiter) : Prop :=
  (match entry.user with
    | none => ¬ opt.domainDelimiter.content <:+: entry.shown
    | some _ => Rightmost opt.domainDelimiter.content entry.shown) ∧
  (entry.literal = false →
    (∀ front back, Bracketed (entryLead opt entry.user) front back →
      entry.port = none ∧ back.head? ≠ some 58) ∧
    ((¬ ∃ front back, Bracketed (entryLead opt entry.user) front back) →
      entry.port = none → 58 ∉ entryLead opt entry.user))

theorem noNul (entry : MapEntry opt.domainDelimiter) : 0 ∉ entry.bytes := by
  have lead : 0 ∉ entryLead opt entry.user := by
    cases entry.user with
    | none => simp [entryLead]
    | some user => simp [entryLead, user.noNul, opt.domainDelimiter.noNul]
  have server : 0 ∉ entry.shown := by
    rw [shown]
    split <;> simp [entry.server.noNul]
  have tail : 0 ∉ entryTail entry.port := by
    cases entry.port with
    | none => simp [entryTail]
    | some port => simp [entryTail, port.noNul]
  simp [bytes, lead, server, tail]

/-- Behind a port no bracket closes. -/
theorem tail_open (entry : MapEntry opt.domainDelimiter) : 93 ∉ entryTail entry.port := by
  cases port : entry.port with
  | none => simp [entryTail]
  | some p => simp [entryTail, (entry.plainPort p port).2.1]

/-- The delimiter is found in front of the server. -/
theorem splits_iff (some_ : opt.domainDelimiter.content ≠ []) (entry : MapEntry opt.domainDelimiter) :
    strrstr (entryLead opt entry.user ++ entry.shown) opt.domainDelimiter.content =
      entry.user.map CString.length ↔
    match entry.user with
    | none => ¬ opt.domainDelimiter.content <:+: entry.shown
    | some _ => Rightmost opt.domainDelimiter.content entry.shown := by
  cases entry.user with
  | none => exact strrstr_none some_
  | some user => exact strrstr_rightmost some_ user.content entry.shown

end MapEntry

/-- The brackets of a text are those of its front where none closes behind that. -/
theorem bracketed_append {lead rest : List Byte} (open_ : 93 ∉ rest) (front back : List Byte) :
    Bracketed (lead ++ rest) front back ↔ ∃ middle, back = middle ++ rest ∧
      Bracketed lead front middle := by
  constructor
  · rintro ⟨same, last, brackets⟩
    have inside : 93 ∈ lead := by
      have closes : 93 ∈ lead ++ rest := by rw [same]; simp
      exact (List.mem_append.mp closes).resolve_right open_
    have ⟨front', middle, split_, last'⟩ := exists_last inside
    rw [split_, List.append_assoc, List.cons_append] at same
    have ⟨fronts, backs⟩ := last_unique (by simp [last', open_]) last same
    rw [← fronts] at brackets ⊢
    exact ⟨middle, backs.symm, split_, last', brackets⟩
  · rintro ⟨middle, rfl, same, last, brackets⟩
    refine ⟨by rw [same, List.append_assoc, List.cons_append], ?_, brackets⟩
    simp [last, open_]

/-- An address between brackets is found behind any user. -/
theorem bracketed_address (lead : List Byte) {address tail : List Byte} (long : 2 ≤ address.length)
    (open_ : 93 ∉ tail) :
    Bracketed (lead ++ 91 :: (address ++ [93]) ++ tail) (lead ++ 91 :: address) tail := by
  refine ⟨by simp, open_, ?_⟩
  obtain ⟨before, inner, same, first⟩ :=
    List.eq_append_cons_of_mem (show 91 ∈ lead ++ [91] by simp)
  refine ⟨before, inner ++ address, ?_, first, ?_⟩
  · rw [show lead ++ 91 :: address = lead ++ [91] ++ address by simp, same]
    simp
  · rw [List.length_append]
    omega

/-- A well-formed entry is parsed into its parts exactly where these are kept apart. -/
theorem MapEntry.assign_iff {opt : Options} (some_ : opt.domainDelimiter.content ≠ [])
    (entry : MapEntry opt.domainDelimiter) :
    userServerPortAssign opt (cstr entry.bytes) =
      .ok ⟨entry.user, some entry.server, entry.port⟩ ↔ entry.Separable := by
  have text : (cstr entry.bytes).content = entryLead opt entry.user ++ entry.shown ++
      entryTail entry.port := cstr_content entry.noNul
  rw [userServerPortAssign_ok_iff text, text, entry.splits_iff some_, Separable]
  cases literal : entry.literal with
  | true =>
    have ⟨opens, closes, long⟩ := entry.address literal
    have whole : entry.shown = 91 :: (entry.server.content ++ [93]) := by
      rw [MapEntry.shown, if_pos literal]
    have brackets := bracketed_address (entryLead opt entry.user) long entry.tail_open
    have fixed := fixIpv6Literal_brackets [] closes
    rw [whole, portPlace_bracketed brackets, if_pos rfl, ← List.cons_append, fixed]
    have place : (if (entryTail entry.port).head? = some 58 then
        some ((entryLead opt entry.user ++ 91 :: entry.server.content).length + 1) else none) =
          entry.port.map fun _ =>
            (entryLead opt entry.user ++ (91 :: entry.server.content ++ [93])).length := by
      cases entry.port with
      | none => simp [entryTail]
      | some port =>
        simp [entryTail]
        omega
    exact ⟨fun found => ⟨found.2.1, nofun⟩, fun kept => ⟨place, kept.1, rfl⟩⟩
  | false =>
    have ⟨filled, colon, opens, closes, _⟩ := entry.name literal
    have whole : entry.shown = entry.server.content := by
      rw [MapEntry.shown, if_neg (by simp [literal])]
    have first : entry.server.content.head? ≠ some 91 := fun first =>
      opens (List.mem_of_head? first)
    rw [whole, fixIpv6Literal_name first, ite_self, List.append_assoc]
    have open_ : 93 ∉ entry.server.content ++ entryTail entry.port := by
      simp [closes, entry.tail_open]
    have second : ∀ {rest : List Byte}, (entry.server.content ++ rest).head? ≠ some 58 := by
      intro rest starts
      rw [List.head?_append, List.head?_eq_some_head filled, Option.some_or] at starts
      exact colon (Option.some.inj starts ▸ List.head_mem filled)
    by_cases brackets : ∃ front back, Bracketed (entryLead opt entry.user) front back
    · have ⟨front, back, found⟩ := brackets
      have more := (bracketed_append open_ front _).mpr ⟨back, rfl, found⟩
      rw [portPlace_bracketed more]
      have unique : ∀ front' back', Bracketed (entryLead opt entry.user) front' back' →
          back' = back := by
        intro front' back' other
        exact (last_unique other.2.1 found.2.1 (other.1.symm.trans found.1)).2
      have behind : (back ++ (entry.server.content ++ entryTail entry.port)).head? = some 58 ↔
          back.head? = some 58 := by
        cases back with
        | nil => simpa using second
        | cons b back => simp
      have shorter : front.length + 1 ≤ (entryLead opt entry.user).length := by
        rw [found.1, List.length_append, List.length_cons]
        omega
      have positive := List.length_pos_iff.mpr filled
      constructor
      · rintro ⟨place, splits, _⟩
        refine ⟨splits, fun _ => ⟨fun front' back' other => ?_, fun none_ => absurd brackets none_⟩⟩
        rw [unique front' back' other]
        dsimp only at place
        cases port : entry.port with
        | none =>
          rw [port, Option.map_none] at place
          refine ⟨rfl, fun first => ?_⟩
          rw [port] at behind
          rw [if_pos (behind.mpr first)] at place
          cases place
        | some p =>
          rw [port, Option.map_some] at place
          split at place
          · injection place with place
            rw [List.length_append] at place
            omega
          · cases place
      · rintro ⟨splits, apart⟩
        have ⟨port, first⟩ := (apart rfl).1 front back found
        refine ⟨?_, splits, rfl⟩
        dsimp only
        rw [if_neg (fun starts => first (behind.mp starts)), port, Option.map_none]
    · have plain : ¬ ∃ front back, Bracketed
          (entryLead opt entry.user ++ (entry.server.content ++ entryTail entry.port)) front back := by
        rintro ⟨front, back, found⟩
        have ⟨middle, _, inside⟩ := (bracketed_append open_ front back).mp found
        exact brackets ⟨front, middle, inside⟩
      rw [portPlace_plain plain]
      cases port : entry.port with
      | none =>
        have colons : strrchr (entryLead opt entry.user ++ (entry.server.content ++ entryTail none))
            58 = none ↔ 58 ∉ entryLead opt entry.user := by
          rw [strrchr_none]
          simp [entryTail, colon]
        constructor
        · rintro ⟨place, splits, _⟩
          exact ⟨splits, fun _ => ⟨fun front back found => absurd ⟨front, back, found⟩ brackets,
            fun _ _ => colons.mp place⟩⟩
        · rintro ⟨splits, apart⟩
          exact ⟨colons.mpr ((apart rfl).2 brackets rfl), splits, rfl⟩
      | some p =>
        have place := strrchr_last (entryLead opt entry.user ++ entry.server.content)
          (entry.plainPort p port).1
        rw [List.append_assoc] at place
        constructor
        · rintro ⟨_, splits, _⟩
          exact ⟨splits, fun _ => ⟨fun front back found => absurd ⟨front, back, found⟩ brackets,
            nofun⟩⟩
        · rintro ⟨splits, _⟩
          exact ⟨place, splits, rfl⟩

/-! ## Null pointers -/

/-- A text has brackets like those of an address and no port behind them, and the server behind its
last delimiter has an opening bracket in front and no closing one. -/
def StrayBracket (opt : Options) (text : List Byte) : Prop :=
  ∃ front back lead server, Bracketed text front back ∧ back.head? ≠ some 58 ∧
    text = lead ++ opt.domainDelimiter.content ++ 91 :: server ∧
    Rightmost opt.domainDelimiter.content (91 :: server) ∧ 93 ∉ server

/-- Fixing a server fails where its opening bracket is not closed. -/
theorem fixIpv6Literal_error {server : List Byte} :
    (∃ fixed, fixIpv6Literal server = .ok fixed) ↔ ∀ rest, server = 91 :: rest → 93 ∈ rest := by
  constructor
  · rintro ⟨fixed, ok⟩ rest rfl
    rcases fixIpv6Literal_ok ok with ⟨first, _⟩ | ⟨back, same, _⟩
    · exact absurd rfl first
    · rw [(List.cons.inj same).2]
      simp
  · intro closed
    by_cases first : server.head? = some 91
    · cases server with
      | nil => cases first
      | cons b rest =>
        obtain rfl : b = 91 := by simpa using first
        obtain ⟨address, back, rfl, clean⟩ := List.eq_append_cons_of_mem (closed rest rfl)
        exact ⟨address, fixIpv6Literal_brackets back clean⟩
    · exact ⟨server, fixIpv6Literal_name first⟩

/-- A string is parsed without writing through a null pointer exactly where it has no stray opening
bracket. -/
theorem userServerPortAssign_total_iff {opt : Options}
    (some_ : opt.domainDelimiter.content ≠ []) (text : CString) :
    (∃ usp, userServerPortAssign opt text = .ok usp) ↔ ¬ StrayBracket opt text.content := by
  have total : (∃ usp, userServerPortAssign opt text = .ok usp) ↔
      ((portPlace text.content).1 = true →
        ∃ fixed, fixIpv6Literal (splitServer opt (entryFront text.content)).2 = .ok fixed) := by
    rw [userServerPortAssign_eq]
    simp only [Except.map_eq_ok]
    cases (portPlace text.content).1 with
    | true =>
      rw [if_pos rfl]
      exact ⟨fun ⟨_, fixed, ok, _⟩ _ => ⟨fixed, ok⟩, fun ok =>
        have ⟨fixed, same⟩ := ok rfl
        ⟨_, fixed, same, rfl⟩⟩
    | false => simp
  rw [total]
  constructor
  · rintro closed ⟨front, back, lead, server, brackets, noPort, same, rightmost, open_⟩
    rw [portPlace_bracketed brackets] at closed
    have fixed := closed rfl
    have front_ : entryFront text.content = text.content := by
      rw [entryFront, portPlace_bracketed brackets, if_neg noPort]
    have found := (strrstr_rightmost some_ lead (91 :: server)).mpr rightmost
    have behind : (splitServer opt text.content).2 = 91 :: server := by
      rw [splitServer, same, found]
      simp only [List.append_assoc]
      rw [← List.drop_drop, List.drop_left, CString.length, List.drop_left]
    rw [front_, behind] at fixed
    exact open_ (fixIpv6Literal_error.mp fixed server rfl)
  · intro clean flag
    rw [fixIpv6Literal_error]
    intro rest starts
    by_contra open_
    by_cases brackets : ∃ front back, Bracketed text.content front back
    · have ⟨front, back, found⟩ := brackets
      have other : ∀ {rest : List Byte}, 93 ∈ (91 : Byte) :: rest → 93 ∈ rest := fun inside =>
        (List.mem_cons.mp inside).resolve_left (by decide)
      by_cases port : back.head? = some 58
      · -- the text in front of the port ends in the closing bracket
        have front_ : entryFront text.content = front ++ [93] := by
          rw [entryFront, portPlace_bracketed found, if_pos port, found.1,
            show front ++ 93 :: back = front ++ [93] ++ back by simp]
          exact List.take_left' (by simp)
        rw [front_] at starts
        unfold splitServer at starts
        split at starts
        · rename_i place delimiter
          have ⟨lead, server, whole, length, _⟩ := strrstr_some some_ delimiter
          dsimp only at starts
          rw [whole, ← length, List.append_assoc, ← List.drop_drop, List.drop_left,
            CString.length, List.drop_left] at starts
          have last := congrArg List.getLast? whole
          rw [starts, List.getLast?_concat, List.getLast?_append, List.getLast?_cons,
            Option.some_or] at last
          have closes : 93 ∈ (91 : Byte) :: rest :=
            List.mem_of_getLast? (by rw [List.getLast?_cons]; exact last.symm)
          exact open_ (other closes)
        · have closes : 93 ∈ (91 : Byte) :: rest := by
            rw [← starts]
            simp
          exact open_ (other closes)
      · have front_ : entryFront text.content = text.content := by
          rw [entryFront, portPlace_bracketed found, if_neg port]
        rw [front_] at starts
        unfold splitServer at starts
        split at starts
        · rename_i place delimiter
          have ⟨lead, server, whole, length, rightmost⟩ := strrstr_some some_ delimiter
          dsimp only at starts
          rw [whole, ← length, List.append_assoc, ← List.drop_drop, List.drop_left,
            CString.length, List.drop_left] at starts
          rw [starts] at whole rightmost
          exact clean ⟨front, back, lead, rest, found, port, whole, rightmost, open_⟩
        · have closes : 93 ∈ (91 : Byte) :: rest := by
            rw [← starts]
            dsimp only
            rw [found.1]
            simp
          exact open_ (other closes)
    · rw [portPlace_plain brackets] at flag
      cases flag

/-- Well-formed entries are parsed into their parts exactly where these are kept apart, and no string
is parsed through a null pointer exactly where it has no stray opening bracket. -/
theorem userServerPortAssign_parses_iff {opt : Options}
    (some_ : opt.domainDelimiter.content ≠ []) :
    (∀ entry : MapEntry opt.domainDelimiter, userServerPortAssign opt (cstr entry.bytes) =
      .ok ⟨entry.user, some entry.server, entry.port⟩ ↔ entry.Separable) ∧
    ∀ text, (∃ usp, userServerPortAssign opt text = .ok usp) ↔ ¬ StrayBracket opt text.content :=
  ⟨MapEntry.assign_iff some_, userServerPortAssign_total_iff some_⟩

/-- An address with a user and a port. -/
def addressEntry : MapEntry Options.sample.domainDelimiter :=
  ⟨some (lit "u"), lit "::1", true, some (lit "143"), fun _ => by decide, nofun,
    fun _ same => Option.some.inj same ▸ by decide⟩

theorem userServerPortAssign_address :
    userServerPortAssign Options.sample (cstr addressEntry.bytes) =
      .ok ⟨some (lit "u"), some (lit "::1"), some (lit "143")⟩ := by
  have last : Rightmost [64] addressEntry.shown := rightmost_byte (by decide)
  exact ((userServerPortAssign_parses_iff (by decide)).1 addressEntry).mpr ⟨last, nofun⟩

/-- A name behind a user with a colon. -/
def colonEntry : MapEntry Options.sample.domainDelimiter :=
  ⟨some (lit "u:x"), lit "server", false, none, nofun, fun _ => by decide +kernel, nofun⟩

/-- The colon of the user is taken for that of the port, and an opening bracket behind the delimiter
of a user with an address is closed through a null pointer. -/
theorem userServerPortAssign_colon :
    userServerPortAssign Options.sample (cstr colonEntry.bytes) ≠
      .ok ⟨colonEntry.user, some colonEntry.server, colonEntry.port⟩ ∧
    userServerPortAssign Options.sample (lit "[aaa]@[b") = .error .nullPointer := by
  constructor
  · have parsed : (userServerPortAssign Options.sample (cstr colonEntry.bytes)).map (·.port) =
        .ok (some (lit "x@server")) := by decide +kernel
    intro same
    rw [same] at parsed
    cases parsed
  · decide +kernel

end Perdition
