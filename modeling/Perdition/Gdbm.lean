import Mathlib.Data.Finmap
import Perdition.Getserver
import Perdition.Makebdb

/-!
# The GDBM map

`makegdbm_new` and `makegdbm_undo` of `makegdbm.c`, and `dbserver_get` of `perditiondb_gdbm.c`. The lines
are read as `makebdb.c` reads them, into a buffer of the same length.
-/
namespace Perdition.Makegdbm

open Makebdb (LineBuffer fgets fills fieldDelimiter)

/-- A GDBM file. -/
abbrev File := Finmap fun _ : List Byte => List Byte

/-- A record of a file. -/
abbrev Record := Σ _ : List Byte, List Byte

/-- What is done with the database and printed on the standard error. -/
inductive Act where
  /-- `gdbm_store` of a record, and what it returned. -/
  | store (key content : List Byte) (ret : Int)
  /-- `fprintf(stderr, ..)`. -/
  | print (text : List Byte)
  /-- `exit(-1)`. -/
  | exit
  /-- `gdbm_close`. -/
  | close
  deriving DecidableEq

/-- GDBM: what its calls return, after what was done before. -/
structure Db where
  /-- `gdbm_open` does not return `NULL`. -/
  opened : Bool
  /-- `gdbm_store`, with `GDBM_INSERT`. -/
  store : List Act → List Byte → List Byte → Int
  /-- `gdbm_strerror(gdbm_errno)`. -/
  gdbmStrerror : List Byte
  /-- `strerror(errno)`. -/
  strerror : List Byte

/-! ## Writing a file -/

/-- The variables of the loop over a line. -/
structure Scan where
  /-- `i`. -/
  i : Nat
  /-- `blank`. -/
  blank : Bool
  /-- `key.dsize`. -/
  keyDsize : Int
  /-- `content.dptr`, as an offset in the line. -/
  contentDptr : Option Nat
  /-- `content.dsize`. -/
  contentDsize : Int
  /-- `lineno`. -/
  lineno : Nat
  deriving DecidableEq

/-- The loop over the bytes of the line from `i` on. -/
def scanLine : List Byte → Scan → Scan
  | [], s => s
  | b :: rest, s =>
    let s := if s.blank && fills b then { s with blank := false } else s
    if s.keyDsize = -1 ∧ b = fieldDelimiter then
      scanLine rest { s with keyDsize := s.i, contentDptr := some (s.i + 1), i := s.i + 1 }
    else if s.contentDsize = -1 ∧ b = lf then
      { s with contentDsize := s.i - s.keyDsize - 1, lineno := s.lineno + 1 }
    else scanLine rest { s with i := s.i + 1 }

/-- The variables of `makegdbm_new`, and what it has done. -/
structure State where
  /-- `line`. -/
  line : LineBuffer
  /-- `content.dptr`. -/
  contentDptr : Option Nat
  /-- `status`. -/
  status : Bool
  /-- `lineno`. -/
  lineno : Nat
  /-- What it has done. -/
  acts : List Act

/-- "makegdbm: invalid input on line: %d \n". -/
def invalidInput (lineno : Nat) : List Byte :=
  bytes "makegdbm: invalid input on line: " ++ decimal lineno ++ bytes " \n"

/-- "makegdbm: dupicate key: %s\n". -/
def dupicateKey (key : CString) : List Byte :=
  bytes "makegdbm: dupicate key: " ++ key.content ++ bytes "\n"

/-- What follows the loop over a line. -/
def useLine (db : Db) (s : State) (scan : Scan) : Option State := do
  let s := { s with contentDptr := scan.contentDptr, lineno := scan.lineno }
  let status := s.status || (!scan.blank && (scan.keyDsize < 1 || scan.contentDsize < 1))
  if status then
    if (← s.line.val[scan.i]?) = lf then
      some { s with status := false, acts := s.acts ++ [.print (invalidInput s.lineno)] }
    else some { s with status }
  else if scan.blank then some { s with status }
  else
    let key := s.line.val.take scan.keyDsize.toNat
    let content := (s.line.val.drop (← scan.contentDptr)).take scan.contentDsize.toNat
    let ret := db.store s.acts key content
    let acts := s.acts ++ [.store key content ret]
    if ret ≤ 0 then some { s with status, acts }
    else
      let line := s.line.store scan.keyDsize.toNat 0
      some { s with line, status, acts := acts ++ [.print (dupicateKey (cstr line.val))] }

/-- The body of the loop over the lines, after `fgets`. -/
def turn (db : Db) (s : State) : Option State :=
  useLine db s (scanLine s.line.val ⟨0, true, -1, s.contentDptr, -1, s.lineno⟩)

/-- The loop over the lines. Every turn reads some of the input, so its length bounds the turns. -/
def turns (db : Db) : Nat → State → List Byte → Option State
  | 0, _, _ => none
  | rounds + 1, s, input =>
    match fgets s.line input with
    | none => some s
    | some (line, rest) => do
      let s ← turn db { s with line }
      turns db rounds s rest

/-- `makegdbm_new`: what it does, for what the buffer and the standard input have in them. -/
def makegdbmNew (db : Db) (line : LineBuffer) (input : List Byte) : Option (List Act) :=
  if !db.opened then
    some [.print (bytes "makegdbm_new: gdbm_open: " ++ db.gdbmStrerror ++ bytes ": " ++
      db.strerror ++ bytes "\n"), .exit]
  else do
    let s ← turns db (input.length + 1) ⟨line, none, false, 0, []⟩ input
    return s.acts ++ [.close]

/-- The record that a `gdbm_store` has stored. -/
def Act.stores : Act → Option Record
  | .store key content 0 => some ⟨key, content⟩
  | _ => none

/-- The file after what was done. `GDBM_NEWDB` has emptied it before. -/
def stored (acts : List Act) : File :=
  (acts.filterMap Act.stores).foldl (fun file record => file.insert record.1 record.2) ∅

/-- GDBM with room for all records: `GDBM_INSERT` refuses a key that is there. -/
def gdbm : Db where
  opened := true
  store acts key _ := if key ∈ stored acts then 1 else 0
  gdbmStrerror := []
  strerror := []

/-! ## Reading a file -/

/-- What the calls of `makegdbm_undo` return. -/
structure Reader where
  /-- `gdbm_open` does not return `NULL`. -/
  opened : Bool
  /-- The keys that `gdbm_firstkey` and `gdbm_nextkey` return. -/
  keys : List (List Byte)
  /-- `gdbm_fetch`. -/
  fetch : List Byte → Option (List Byte)
  /-- `gdbm_strerror(gdbm_errno)`. -/
  gdbmStrerror : List Byte
  /-- `strerror(errno)`. -/
  strerror : List Byte

/-- What is printed for a key. Two bytes are printed of the strings `":"` and `"\n"`. -/
def undoKey (db : Reader) (key : List Byte) : List Byte :=
  key ++ [fieldDelimiter, 0] ++ (db.fetch key).getD [] ++ [lf, 0]

/-- `makegdbm_undo`: what it prints on the standard output and on the standard error. -/
def makegdbmUndo (db : Reader) : List Byte × List Byte :=
  if !db.opened then
    ([], bytes "makegdbm_undo: gdbm_open: " ++ db.gdbmStrerror ++ bytes ": " ++ db.strerror ++
      bytes "\n")
  else if db.keys = [] then ([], bytes "makegdbm: makegdbm_undo: no first key\n")
  else (db.keys.flatMap (undoKey db), [])

/-- A reader of the records of a file, in some order. -/
def gdbmReader (records : AList fun _ : List Byte => List Byte) : Reader :=
  ⟨true, records.keys, records.toFinmap.lookup, [], []⟩

/-- `dbserver_get` of `perditiondb_gdbm.c`, where `gdbm_open` does not return `NULL` or does. -/
def dbserverGet (opened : Bool) (file : File) (keyStr : CString) : MapResult :=
  if !opened then .failed (-1)
  else match file.lookup keyStr.content with
    | none => .failed (-2)
    | some content => .entry 0 (cstr content)

end Perdition.Makegdbm
