import Perdition.Verif.KeyStrings

/-!
# The order of lookups

`getserver` asks a map for one key after another. A status says whether to go on, and an empty entry
has the status of a success.
-/
namespace Perdition

/-! ## Answers -/

/-- What a lookup comes to. -/
inductive LookupAnswer where
  /-- The key is not in the map. -/
  | missing
  /-- There is an entry with nothing in it. -/
  | empty
  /-- The lookup fails, or there is no key to look up. -/
  | failed
  /-- There is an entry, which is parsed. -/
  | entry (usp : Except Fault UserServerPort)
  deriving DecidableEq

/-- The answer of a map for a key. -/
def lookupAnswer (opt : Options) (map : CString → MapResult) (key : CString) : LookupAnswer :=
  match map key with
  | .failed status =>
    if status = -2 then .missing else if status < 0 then .failed else .empty
  | .entry _ text => if text.isEmpty then .empty else .entry (userServerPortAssign opt text)
  | .parts _ user server port =>
    if emptyOrNull user && emptyOrNull server && emptyOrNull port then .empty
    else .entry (.ok ⟨user, server, port⟩)

/-- The answer for a format of a key. -/
def formatAnswer (opt : Options) (map : CString → MapResult) (user : CString)
    (addresses : Addresses) (format : CString) : LookupAnswer :=
  match getserverKeyStr opt user addresses format.content with
  | none => .failed
  | some key => lookupAnswer opt map (cstr key)

/-- The answers for the formats of `query_key` in their order; without any the user is the key. -/
def lookupAnswers (opt : Options) (map : CString → MapResult) (user : CString)
    (addresses : Addresses) : List LookupAnswer :=
  match opt.queryKey with
  | none => [lookupAnswer opt map user]
  | some formats => formats.map (formatAnswer opt map user addresses)

/-- The first success: an entry before which all keys are missing or have empty entries. -/
def FirstSuccess (answers front : List LookupAnswer) (usp : Except Fault UserServerPort) : Prop :=
  ∃ back, answers = front ++ .entry usp :: back ∧
    ∀ answer ∈ front, answer = .missing ∨ answer = .empty

/-- The first success is returned, and NULL where there is none. -/
def ReturnsFirst (opt : Options) (map : CString → MapResult) (user : CString)
    (addresses : Addresses) : Prop :=
  (∀ front usp, FirstSuccess (lookupAnswers opt map user addresses) front usp →
    ∃ entry, usp = .ok entry ∧ getserver opt (some map) user addresses = .ok (some entry, user)) ∧
  ((∀ front usp, ¬ FirstSuccess (lookupAnswers opt map user addresses) front usp) →
    getserver opt (some map) user addresses = .ok (none, user))

/-! ## What the loop returns -/

/-- What the loop returns for the answers: an empty entry ends it too. -/
def firstAnswer : List LookupAnswer → Except Fault (Option UserServerPort)
  | [] => .ok none
  | .missing :: rest => firstAnswer rest
  | .empty :: _ => .ok none
  | .failed :: _ => .ok none
  | .entry usp :: _ => usp.map some

/-- What `getserver` makes of a status and an entry. -/
def answered (found : Option (Int × Option UserServerPort)) : Option UserServerPort :=
  match found with
  | some (status, usp) => if status < 0 then none else usp
  | none => none

variable {opt : Options} {map : CString → MapResult} {user : CString} {addresses : Addresses}

/-- One lookup goes on exactly where the key is missing. -/
theorem doGetserver_answer (key : CString) (rest : List LookupAnswer) :
    (doGetserver opt map key >>= fun found =>
      if found.1 = -2 then firstAnswer rest else .ok (answered (some found))) =
      firstAnswer (lookupAnswer opt map key :: rest) := by
  rw [doGetserver, lookupAnswer]
  cases map key with
  | failed status =>
    by_cases missing : status = -2
    · subst missing
      rfl
    · by_cases negative : status < 0
      · simp [firstAnswer, answered, missing, negative]
      · simp [firstAnswer, answered, missing, negative]
  | entry status text =>
    have success : ¬ ((status : Int) = -2) := by omega
    have found : ¬ ((status : Int) < 0) := by omega
    by_cases empty_ : text.isEmpty = true
    · simp [firstAnswer, answered, empty_, success]
    · cases parsed : userServerPortAssign opt text with
      | ok usp =>
        dsimp only
        rw [if_neg empty_, if_neg empty_, parsed]
        change (if (status : Int) = -2 then firstAnswer rest
          else Except.ok (answered (some (status, some usp)))) = Except.ok (some usp)
        rw [if_neg success, answered, if_neg found]
      | error why =>
        dsimp only
        rw [if_neg empty_, if_neg empty_, parsed]
        rfl
  | parts status user server port =>
    have success : ¬ ((status : Int) = -2) := by omega
    have found : ¬ ((status : Int) < 0) := by omega
    by_cases empty_ : (emptyOrNull user && emptyOrNull server && emptyOrNull port) = true
    · simp [firstAnswer, answered, empty_, success]
    · simp [firstAnswer, answered, empty_, success, found, Except.map]

/-- The loop over the formats. -/
theorem getserverQuery_answers (formats : List CString) {last : Int × Option UserServerPort}
    (negative : last.1 < 0) :
    (getserverQuery opt map user addresses last formats).map answered =
      firstAnswer (formats.map (formatAnswer opt map user addresses)) := by
  induction formats generalizing last with
  | nil =>
    simp only [getserverQuery, List.map_nil, firstAnswer]
    exact congrArg Except.ok (if_pos negative)
  | cons format formats ih =>
    rw [getserverQuery, List.map_cons, formatAnswer]
    cases getserverKeyStr opt user addresses format.content with
    | none => rfl
    | some key =>
      dsimp only
      rw [← doGetserver_answer]
      cases doGetserver opt map (cstr key) with
      | error why => rfl
      | ok found =>
        by_cases missing : found.1 = -2
        · change Except.map answered (if found.1 = -2 then _ else _) = if found.1 = -2 then _ else _
          rw [if_pos missing, if_pos missing]
          exact ih (by rw [missing]; decide)
        · change Except.map answered (if found.1 = -2 then _ else _) = if found.1 = -2 then _ else _
          rw [if_neg missing, if_neg missing]
          rfl

/-- A user that names no server is looked up. -/
theorem getserver_answers
    (unspecified : opt.clientServerSpecification = true →
      strrstr user.content opt.domainDelimiter.content = none) :
    getserver opt (some map) user addresses =
      (firstAnswer (lookupAnswers opt map user addresses)).map (·, user) := by
  have none_ : (if opt.clientServerSpecification then
      strrstr user.content opt.domainDelimiter.content else none) = none := by
    split
    · exact unspecified ‹_›
    · rfl
  have final : ∀ looked : Except Fault (Option (Int × Option UserServerPort)),
      (looked >>= fun found => match found with
        | some (status, usp) =>
          if status < 0 then pure (none, user) else pure (usp, user)
        | none => pure (none, user)) = (looked.map answered).map (·, user) := by
    intro looked
    cases looked with
    | error why => rfl
    | ok found =>
      cases found with
      | none => rfl
      | some found =>
        change (if found.1 < 0 then _ else _) =
          Except.ok (if found.1 < 0 then none else found.2, user)
        split <;> rfl
  simp only [getserver, none_, lookupAnswers]
  cases opt.queryKey with
  | none =>
    dsimp only
    rw [← doGetserver_answer]
    cases doGetserver opt map user with
    | error why => rfl
    | ok found =>
      refine (final (.ok (some found))).trans (congrArg (Except.map (·, user)) ?_)
      change Except.ok (answered (some found)) =
        if found.1 = -2 then Except.ok none else Except.ok (answered (some found))
      split
      · rename_i missing
        exact congrArg Except.ok (if_pos (by rw [missing]; decide))
      · rfl
  | some formats =>
    refine (final _).trans (congrArg (Except.map (·, user)) ?_)
    exact getserverQuery_answers formats
      (show ((-1, none) : Int × Option UserServerPort).1 < 0 by decide)

/-! ## The first success -/

variable {answers front : List LookupAnswer} {usp : Except Fault UserServerPort}

/-- A success behind missing keys is returned. -/
theorem firstAnswer_success (success : FirstSuccess answers front usp) :
    firstAnswer answers = if .empty ∈ front then .ok none else usp.map some := by
  obtain ⟨back, rfl, passed⟩ := success
  induction front with
  | nil => rfl
  | cons answer front ih =>
    have later := ih fun other inside => passed other (List.mem_cons_of_mem _ inside)
    rcases passed answer (List.mem_cons_self ..) with rfl | rfl
    · simp only [List.cons_append, firstAnswer, later, List.mem_cons, reduceCtorEq, false_or]
    · rw [if_pos (List.mem_cons_self ..)]
      rfl

/-- Without a success NULL is returned. -/
theorem firstAnswer_none (none_ : ∀ front usp, ¬ FirstSuccess answers front usp) :
    firstAnswer answers = .ok none := by
  induction answers with
  | nil => rfl
  | cons answer answers ih =>
    cases answer with
    | missing =>
      refine ih fun front usp success => ?_
      obtain ⟨back, rfl, passed⟩ := success
      refine none_ (.missing :: front) usp ⟨back, rfl, fun other inside => ?_⟩
      rcases List.mem_cons.mp inside with rfl | later
      · exact .inl rfl
      · exact passed other later
    | empty => rfl
    | failed => rfl
    | entry usp => exact absurd ⟨answers, rfl, by simp⟩ (none_ [] usp)

/-- `getserver` returns the first success exactly where no empty entry comes before it and it is
parsed. -/
theorem getserver_returnsFirst_iff
    (unspecified : opt.clientServerSpecification = true →
      strrstr user.content opt.domainDelimiter.content = none) :
    ReturnsFirst opt map user addresses ↔
      ∀ front usp, FirstSuccess (lookupAnswers opt map user addresses) front usp →
        .empty ∉ front ∧ ∃ entry, usp = .ok entry := by
  rw [ReturnsFirst, getserver_answers unspecified]
  constructor
  · rintro ⟨returns, _⟩ front usp success
    have ⟨entry, parsed, same⟩ := returns front usp success
    refine ⟨fun nothing => ?_, entry, parsed⟩
    rw [firstAnswer_success success, if_pos nothing] at same
    cases same
  · intro clean
    refine ⟨fun front usp success => ?_, fun none_ => by rw [firstAnswer_none none_]; rfl⟩
    have ⟨filled, entry, parsed⟩ := clean front usp success
    refine ⟨entry, parsed, ?_⟩
    rw [firstAnswer_success success, if_neg filled, parsed]
    rfl

/-! ## An empty entry -/

/-- Two formats: the user, and the user without a domain. -/
def queryOptions : Options :=
  { Options.sample with queryKey := some [lit "\\U", lit "\\u"] }

/-- A map with one key. -/
def oneKey (key : CString) (answer : MapResult) (asked : CString) : MapResult :=
  if asked = key then answer else .failed (-2)

/-- The server of the second key is returned where the first one is not in the map. -/
theorem getserver_second : ReturnsFirst queryOptions (oneKey (lit "u") (.entry 0 (lit "mail")))
    (lit "u@d") localAddresses := by
  refine (getserver_returnsFirst_iff (by decide)).mpr fun front usp success => ?_
  have answers : lookupAnswers queryOptions (oneKey (lit "u") (.entry 0 (lit "mail")))
      (lit "u@d") localAddresses = [.missing, .entry (.ok ⟨none, some (lit "mail"), none⟩)] := by
    decide +kernel
  obtain ⟨back, same, passed⟩ := success
  rw [answers] at same
  match front with
  | [] => cases same
  | [first] =>
    obtain ⟨rfl, second⟩ := List.cons.inj same
    exact ⟨by decide, _, (LookupAnswer.entry.inj (List.cons.inj second).1).symm⟩
  | first :: second :: front =>
    rw [← (List.cons.inj (List.cons.inj same).2).1] at passed
    exact absurd (passed (.entry (.ok ⟨none, some (lit "mail"), none⟩)) (by simp)) (by simp)

/-- A map with an empty entry for one key and a server for another one. -/
def emptyEntry (asked : CString) : MapResult :=
  if asked = lit "u@d" then .entry 0 .empty else oneKey (lit "u") (.entry 0 (lit "mail")) asked

/-- An empty entry for the first key hides the server of the second one. -/
theorem getserver_emptyEntry : ¬ ReturnsFirst queryOptions emptyEntry (lit "u@d") localAddresses := by
  intro returns
  have answers : lookupAnswers queryOptions emptyEntry (lit "u@d") localAddresses =
      [.empty, .entry (.ok ⟨none, some (lit "mail"), none⟩)] := by
    decide +kernel
  have ⟨entry, _, same⟩ := returns.1 [.empty] (.ok ⟨none, some (lit "mail"), none⟩)
    ⟨[], answers, by simp⟩
  have nothing : getserver queryOptions (some emptyEntry) (lit "u@d") localAddresses =
      .ok (none, lit "u@d") := by decide +kernel
  rw [nothing] at same
  cases same

end Perdition
