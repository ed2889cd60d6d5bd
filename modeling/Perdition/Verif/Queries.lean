import Perdition.Mysql

/-!
# Which queries are whole

`snprintf` does not return less than zero where it cuts what it writes, so `dbserver_get` executes what is
left of a statement that is too long.
-/
namespace Perdition.Mysql

variable (client : Client) (config : Config) (keyStr : CString)

/-- The escaped key is no longer than the statement that it is in. -/
theorem escape_statement (keyStrEscaped : CString) :
    keyStrEscaped.length ≤ (config.statement keyStrEscaped).length := by
  rw [Config.statement]
  split
  · simp only [CString.length, CString.content_append, List.length_append]
    omega
  · simp only [CString.length, CString.content_append, List.length_append]
    omega

/-- The statement for a key. -/
def statementFor : CString := config.statement (client.escape keyStr)

/-- `snprintf` leaves the whole string in the buffer where it has room there. -/
theorem snprintf_whole {size : Nat} {whole : CString} (room : whole.length < size) :
    (snprintf size whole).1 = whole := by
  have fits : whole.content.length ≤ size - 1 := Nat.le_sub_one_of_lt room
  rw [snprintf, List.take_of_length_le fits]
  exact cstr_self whole

/-- Where it has none, another string is there. -/
theorem snprintf_cut {size : Nat} (some_ : 0 < size) {whole : CString} (long : size ≤ whole.length) :
    (snprintf size whole).1 ≠ whole := by
  intro same
  have short := cstr_length_le (whole.content.take (size - 1))
  change (snprintf size whole).1.length ≤ _ at short
  rw [same, List.length_take] at short
  omega

/-! ## What is done -/

section

variable {client config keyStr}

/-- Nothing is executed without a connection. -/
theorem dbserverGet_idle (idle : ¬ (client.init = true ∧ connected client config = true)) :
    dbserverGet client config keyStr = some ⟨[], -1, none, none⟩ := by
  rw [dbserverGet]
  split
  · rfl
  · rename_i init
    have none_ : ¬ connected client config = true := fun some_ => idle ⟨by simpa using init, some_⟩
    rw [if_pos (by simpa using none_)]

variable (init : client.init = true) (some_ : connected client config = true)

include init some_

/-- An escaped key that has no room is written behind its array. -/
theorem dbserverGet_outside (long : 2 * queryLength < (client.escape keyStr).length) :
    dbserverGet client config keyStr = none := by
  rw [dbserverGet, init, some_]
  exact if_pos (Nat.succ_lt_succ long)

variable (room : (client.escape keyStr).length ≤ 2 * queryLength)

include room

/-- A statement whose length is no `int` is an error. -/
theorem dbserverGet_unsized (large : intMax < (statementFor client config keyStr).length) :
    dbserverGet client config keyStr = some ⟨[], -3, none, none⟩ := by
  have negative : (snprintf queryLength (config.statement (client.escape keyStr))).2 < 0 := by
    rw [snprintf, if_neg (show ¬ (config.statement (client.escape keyStr)).length ≤ intMax from
      Nat.not_le_of_lt large)]
    exact (show (-1 : Int) < 0 by decide)
  rw [dbserverGet, init, some_]
  dsimp only
  rw [if_neg (by decide), if_neg (by decide), if_neg (by omega), if_pos negative]

/-- What is in the buffer is executed. -/
theorem dbserverGet_executed (small : (statementFor client config keyStr).length ≤ intMax) :
    ∃ outcome, dbserverGet client config keyStr = some outcome ∧
      outcome.executed = [(snprintf queryLength (statementFor client config keyStr)).1] := by
  have written : ¬ (snprintf queryLength (config.statement (client.escape keyStr))).2 < 0 := by
    rw [snprintf, if_pos (show (config.statement (client.escape keyStr)).length ≤ intMax from small)]
    exact Int.not_lt.mpr (Int.natCast_nonneg _)
  rw [dbserverGet, init, some_]
  dsimp only
  rw [if_neg (by decide), if_neg (by decide), if_neg (by omega), if_neg written]
  split
  · exact ⟨_, rfl, rfl⟩
  · exact ⟨_, rfl, rfl⟩

end

/-! ## Whole statements -/

/-- The escaped key is written in its array, only the whole statement is executed, and a statement that
does not fit is an error. -/
structure QueryWhole : Prop where
  /-- The array is not left. -/
  inside : dbserverGet client config keyStr ≠ none
  /-- What is executed. -/
  whole : ∀ outcome, dbserverGet client config keyStr = some outcome →
    ∀ sqlstr ∈ outcome.executed, sqlstr = statementFor client config keyStr
  /-- What is returned where a connection is made. -/
  truncated : client.init → connected client config →
    queryLength ≤ (statementFor client config keyStr).length →
      ∀ outcome, dbserverGet client config keyStr = some outcome → outcome.status = -3

variable {client config keyStr} in
/-- Where nothing is executed, there is only the status to look at. -/
theorem queryWhole_nothing {outcome : Outcome}
    (returned : dbserverGet client config keyStr = some outcome) (nothing : outcome.executed = [])
    (status : client.init → connected client config → outcome.status = -3) :
    QueryWhole client config keyStr := by
  constructor
  · rw [returned]
    exact Option.some_ne_none _
  · intro other same sqlstr member
    rw [returned, Option.some.injEq] at same
    rw [← same, nothing] at member
    cases member
  · intro init some_ _ other same
    rw [returned, Option.some.injEq] at same
    exact same ▸ status init some_

/-- `dbserver_get` executes whole statements exactly where no connection is made, or the statement has
room, or its length is no `int` while the escaped key has room. -/
theorem dbserverGet_whole_iff :
    QueryWhole client config keyStr ↔
      (client.init → connected client config →
        (statementFor client config keyStr).length < queryLength ∨
          intMax < (statementFor client config keyStr).length ∧
            (client.escape keyStr).length ≤ 2 * queryLength) := by
  constructor
  · intro query init some_
    by_contra other
    have ⟨long, unsized⟩ := not_or.mp other
    by_cases room : (client.escape keyStr).length ≤ 2 * queryLength
    · have small : (statementFor client config keyStr).length ≤ intMax :=
        Nat.le_of_not_lt fun large => unsized ⟨large, room⟩
      have ⟨outcome, returned, executed⟩ := dbserverGet_executed init some_ room small
      have same := query.whole outcome returned _ (executed ▸ List.mem_singleton_self _)
      exact snprintf_cut (by decide) (Nat.le_of_not_lt long) same
    · exact query.inside (dbserverGet_outside init some_ (Nat.lt_of_not_le room))
  · intro fits
    by_cases idle : client.init = true ∧ connected client config = true
    · have ⟨init, some_⟩ := idle
      rcases fits init some_ with short | ⟨large, room⟩
      · have small : (statementFor client config keyStr).length ≤ intMax :=
          Nat.le_trans (Nat.le_of_lt short) (by decide)
        have room : (client.escape keyStr).length ≤ 2 * queryLength := by
          have part := escape_statement config (client.escape keyStr)
          change _ ≤ (statementFor client config keyStr).length at part
          omega
        have ⟨outcome, returned, executed⟩ := dbserverGet_executed init some_ room small
        refine ⟨by rw [returned]; exact Option.some_ne_none _, ?_, fun _ _ long => by omega⟩
        intro other same sqlstr member
        rw [returned, Option.some.injEq] at same
        rw [← same, executed, List.mem_singleton] at member
        rw [member, snprintf_whole short]
      · exact queryWhole_nothing (dbserverGet_unsized init some_ room large) rfl fun _ _ => rfl
    · exact queryWhole_nothing (dbserverGet_idle idle) rfl
        fun init some_ => absurd ⟨init, some_⟩ idle

/-- A client that connects and finds no row. There is nothing to escape in the keys asked for. -/
def noRow : Client where
  init := true
  realConnect _ _ _ _ _ := true
  escape key := key
  escape_length key := by omega
  query _ := true
  storeResult _ := some 0
  fetchRow _ := none
  malloc _ := true

/-- The defaults of `dbserver_init`, and one host. -/
def Config.default : Config :=
  ⟨[lit "localhost"], lit "perdition", lit "perdition", lit "dbPerdition", 0, lit "tblPerdition",
    lit "user", lit "servername", some (lit "port")⟩

/-- A user name of 300 bytes. -/
def longName : CString := cstr (List.replicate 300 97)

/-- Of the statement for a long name the start is executed. -/
theorem dbserverGet_cut :
    dbserverGet noRow .default longName =
        some ⟨[lit "select user,servername,port from tblPerdition where user='" ++
          cstr (List.replicate 197 97)], -2, none, none⟩ ∧
      ¬ QueryWhole noRow .default longName := by
  have returned : dbserverGet noRow .default longName =
      some ⟨[lit "select user,servername,port from tblPerdition where user='" ++
        cstr (List.replicate 197 97)], -2, none, none⟩ := by
    decide +kernel
  refine ⟨returned, fun query => ?_⟩
  have same := query.whole _ returned _ (List.mem_singleton_self _)
  exact absurd same (by decide +kernel)

end Perdition.Mysql
