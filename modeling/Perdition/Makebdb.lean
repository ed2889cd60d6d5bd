import Perdition.Bytes

/-!
# makebdb

`makebdb_new` of `makebdb.c`: the lines of the standard input become the records of a Berkeley DB file.
One buffer has all the lines, one after another, and what `fgets` does not write of it stays as it was.
Reading behind the buffer leaves no result.
-/
namespace Perdition.Makebdb

/-- `MAX_LINE_LENGTH`. -/
def maxLineLength : Nat := 4096

/-- `FIELD_DELIMITER`. -/
def fieldDelimiter : Byte := 58

/-- `'\t'`. -/
def tab : Byte := 9

/-- `char line[MAX_LINE_LENGTH]`. -/
abbrev LineBuffer := { line : List Byte // line.length = maxLineLength }

/-- What is done with the database and printed on the standard error. -/
inductive Act where
  /-- `dbp->put` of a record, and what it returned. -/
  | put (key content : List Byte) (ret : Int)
  /-- `fprintf(stderr, ..)`. -/
  | print (text : List Byte)
  /-- `exit(-1)`. -/
  | exit
  /-- `dbp->close`. -/
  | close
  deriving DecidableEq

/-- Berkeley DB: what its calls return, after what was done before. -/
structure Db where
  /-- `db_create`. -/
  create : Int
  /-- `dbp->open`. -/
  opened : Int
  /-- `dbp->put`, with `DB_NOOVERWRITE`. -/
  put : List Act → List Byte → List Byte → Int
  /-- `db_strerror`. -/
  strerror : Int → List Byte

/-- The bytes that one `fgets` reads, up to a newline or as far as the buffer goes. -/
def fgetsBytes (input : List Byte) : List Byte :=
  match input.idxOf? lf with
  | some place => input.take (min (place + 1) (maxLineLength - 1))
  | none => input.take (maxLineLength - 1)

theorem fgetsBytes_length (input : List Byte) : (fgetsBytes input).length < maxLineLength := by
  rw [fgetsBytes]
  split
  · rw [List.length_take, maxLineLength]
    omega
  · rw [List.length_take, maxLineLength]
    omega

/-- `fgets(line, MAX_LINE_LENGTH, stdin)`: the buffer after it, and the input that is left. -/
def fgets (line : LineBuffer) (input : List Byte) : Option (LineBuffer × List Byte) :=
  if input.isEmpty then none
  else
    let read := fgetsBytes input
    some (⟨read ++ 0 :: line.val.drop (read.length + 1), by
      have short : read.length < maxLineLength := fgetsBytes_length input
      have whole := line.property
      rw [List.length_append, List.length_cons, List.length_drop]
      omega⟩, input.drop read.length)

/-- The variables of the loop over a line. The sizes are 32 bits wide. -/
structure Scan where
  /-- `i`. -/
  i : Nat
  /-- `blank`. -/
  blank : Bool
  /-- `key.size`. -/
  keySize : Nat
  /-- `content.data`, as an offset in the line. -/
  contentData : Option Nat
  /-- `content.size`. -/
  contentSize : Nat
  /-- `lineno`. -/
  lineno : Nat
  deriving DecidableEq

/-- `*(line+i)` does not leave the line blank. -/
def fills (b : Byte) : Bool := b != space && b != tab && b != lf

/-- The loop over the bytes of the line from `i` on. -/
def scanLine : List Byte → Scan → Scan
  | [], s => s
  | b :: rest, s =>
    let s := if s.blank && fills b then { s with blank := false } else s
    if s.keySize = maxLineLength ∧ b = fieldDelimiter then
      scanLine rest { s with keySize := s.i, contentData := some (s.i + 1), i := s.i + 1 }
    else if s.contentSize = maxLineLength ∧ b = lf then
      { s with contentSize := (s.i + 2 ^ 32 - s.keySize - 1) % 2 ^ 32, lineno := s.lineno + 1 }
    else scanLine rest { s with i := s.i + 1 }

/-- The variables of `makebdb_new`, and what it has done. -/
structure State where
  /-- `line`. -/
  line : LineBuffer
  /-- `i`. -/
  i : Nat
  /-- `content.data`. -/
  contentData : Option Nat
  /-- `status`. -/
  status : Bool
  /-- `lineno`. -/
  lineno : Nat
  /-- What it has done. -/
  acts : List Act

/-- "makebdb: invalid input on line: %d \n". -/
def invalidInput (lineno : Nat) : List Byte :=
  bytes "makebdb: invalid input on line: " ++ decimal lineno ++ bytes " \n"

/-- "makebdb: %s (key: %s)\n". -/
def putError (error : List Byte) (key : CString) : List Byte :=
  bytes "makebdb: " ++ error ++ bytes " (key: " ++ key.content ++ bytes ")\n"

/-- `*(line+i)=b`. -/
def LineBuffer.store (line : LineBuffer) (i : Nat) (b : Byte) : LineBuffer :=
  ⟨line.val.set i b, by rw [List.length_set, line.property]⟩

/-- What follows the loop over a line. -/
def useLine (db : Db) (s : State) (scan : Scan) : Option State := do
  let s := { s with i := scan.i, contentData := scan.contentData, lineno := scan.lineno }
  let status := s.status ||
    (!scan.blank && (scan.keySize == maxLineLength || scan.contentSize == maxLineLength))
  if status then
    if (← s.line.val[scan.i]?) = lf then
      some { s with status := false, acts := s.acts ++ [.print (invalidInput s.lineno)] }
    else some { s with status }
  else if scan.blank then some { s with status }
  else
    let key := s.line.val.take scan.keySize
    let content := (s.line.val.drop (← scan.contentData)).take scan.contentSize
    let ret := db.put s.acts key content
    let acts := s.acts ++ [.put key content ret]
    if ret = 0 then some { s with status, acts }
    else
      let line := s.line.store scan.keySize 0
      some { s with line, status, acts := acts ++ [.print (putError (db.strerror ret) (cstr line.val))] }

/-- The body of the loop over the lines, after `fgets`. -/
def turn (db : Db) (s : State) : Option State :=
  useLine db s (scanLine s.line.val ⟨0, true, maxLineLength, s.contentData, maxLineLength, s.lineno⟩)

/-- The loop over the lines: the variables after each turn. Every turn reads some of the input, so its
length bounds the turns. -/
def turns (db : Db) : Nat → State → List Byte → Option (List State)
  | 0, _, _ => none
  | rounds + 1, s, input =>
    match fgets s.line input with
    | none => some []
    | some (line, rest) => do
      let s ← turn db { s with line }
      let later ← turns db rounds s rest
      return s :: later

/-- The variables before the loop. -/
def State.start (line : LineBuffer) : State := ⟨line, 0, none, false, 0, []⟩

/-- `makebdb_new`: what it does, for what the buffer and the standard input have in them. -/
def makebdbNew (db : Db) (line : LineBuffer) (input : List Byte) : Option (List Act) :=
  if db.create ≠ 0 then
    some [.print (bytes "makebdb_new: db_create: " ++ db.strerror db.create ++ bytes "\n"), .exit]
  else if db.opened ≠ 0 then
    some [.print (bytes "makebdb_new: DB->open: " ++ db.strerror db.opened ++ bytes "\n"), .exit]
  else do
    let start := State.start line
    let states ← turns db (input.length + 1) start input
    return (states.getLastD start).acts ++ [.close]

end Perdition.Makebdb
