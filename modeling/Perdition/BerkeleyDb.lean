import Mathlib.Data.Finmap
import Perdition.Getserver
import Perdition.Makebdb

/-!
# The Berkeley DB map

What `makebdb_new` leaves in its file, `makebdb_undo` of `makebdb.c`, and `dbserver_get` of
`perditiondb_bdb.c`. Memory is always allocated.
-/
namespace Perdition.Makebdb

/-- A Berkeley DB file. -/
abbrev File := Finmap fun _ : List Byte => List Byte

/-- A record of a file. -/
abbrev Record := Σ _ : List Byte, List Byte

/-! ## Writing a file -/

/-- `DB_KEYEXIST`. -/
def dbKeyexist : Int := -30995

/-- The record that a `dbp->put` has stored. -/
def Act.stores : Act → Option Record
  | .put key content 0 => some ⟨key, content⟩
  | _ => none

/-- The file after what was done. `DB_TRUNCATE` has emptied it before. -/
def stored (acts : List Act) : File :=
  (acts.filterMap Act.stores).foldl (fun file record => file.insert record.1 record.2) ∅

/-- Berkeley DB with room for all records: `DB_NOOVERWRITE` refuses a key that is there. -/
def berkeleyDb (strerror : Int → List Byte) : Db where
  create := 0
  opened := 0
  put acts key _ := if key ∈ stored acts then dbKeyexist else 0
  strerror := strerror

/-! ## Reading a file -/

/-- What the calls of `makebdb_undo` return. -/
structure DbCursor where
  /-- `db_create`. -/
  create : Int
  /-- `dbp->open`. -/
  opened : Int
  /-- `dbp->cursor`. -/
  cursor : Int
  /-- The records that `dbcp->c_get` returns, one after another. -/
  records : List Record
  /-- What it returns then. -/
  last : Int
  /-- `db_strerror`. -/
  strerror : Int → List Byte

/-- `DB_NOTFOUND`. -/
def dbNotfound : Int := -30988

/-- What is printed for a record. -/
def undoRecord (record : Record) : List Byte :=
  record.1 ++ [fieldDelimiter] ++ record.2 ++ [lf]

/-- `makebdb_undo`: what it prints on the standard output and on the standard error. -/
def makebdbUndo (db : DbCursor) : List Byte × List Byte :=
  if db.create ≠ 0 then
    ([], bytes "makebdb_undo: db_create: " ++ db.strerror db.create ++ bytes "\n")
  else if db.opened ≠ 0 then
    ([], bytes "makebdb_undo: DB->open: " ++ db.strerror db.opened ++ bytes "\n")
  else if db.cursor ≠ 0 then
    ([], bytes "makebdb_undo: DB->cursor: " ++ db.strerror db.cursor ++ bytes "\n")
  else (db.records.flatMap undoRecord,
    if db.last ≠ dbNotfound then
      bytes "makebdb_undo: DBcursor->get: " ++ db.strerror db.last ++ bytes "\n"
    else [])

/-- A cursor over the records of a file, in some order. -/
def berkeleyCursor (records : AList fun _ : List Byte => List Byte)
    (strerror : Int → List Byte) : DbCursor :=
  ⟨0, 0, 0, records.entries, dbNotfound, strerror⟩

/-- `dbserver_get` of `perditiondb_bdb.c`, with what `db_create` and `dbp->open` return. -/
def dbserverGet (create opened : Int) (file : File) (keyStr : CString) : MapResult :=
  if create ≠ 0 then .failed (-3)
  else if opened ≠ 0 then .failed (-1)
  else match file.lookup keyStr.content with
    | none => .failed (-2)
    | some value => .entry 0 (cstr value)

end Perdition.Makebdb
