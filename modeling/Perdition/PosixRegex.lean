import Perdition.StrMemory

/-!
# The map of regular expressions

`dbserver_get` of `perditiondb_posix_regex.c`. What `regexec` finds for a rule is part of the rule.
A value that does not fit an `int`, and an access outside an allocated block, leave no result.
-/
namespace Perdition

open Lib.Block

/-! ## Rules -/

/-- A `regmatch_t` that is set, for a key of this many bytes. -/
structure Regmatch (size : Nat) where
  /-- `rm_so`. -/
  so : Nat
  /-- `rm_eo`. -/
  eo : Nat
  /-- The group ends where it begins or later. -/
  ordered : so ≤ eo
  /-- It ends inside the key. -/
  inside : eo ≤ size
  deriving DecidableEq

/-- `rm_eo - rm_so`. -/
def Regmatch.length {size : Nat} (group : Regmatch size) : Nat := group.eo - group.so

/-- `subs` after `regexec` has matched: the match, and the groups in it that are set. -/
structure Subs (size : Nat) where
  /-- `subs[0]`. -/
  whole : Regmatch size
  /-- `subs[1]` up to `subs[9]`. -/
  sub : Fin 9 → Option (Regmatch size)

/-- A rule of the map. -/
structure RegexRule where
  /-- What `regexec` gives for the compiled pattern and a key. -/
  regexec (key : CString) : Option (Subs key.length)
  /-- The value with the references to groups. -/
  replace : CString

/-- `dbserver_get`, what it returns and stores. -/
structure RegexAnswer where
  /-- 0 or -2. -/
  status : Int
  /-- The block that `*str_return` points to. -/
  str : List Byte
  /-- `*len_return`. -/
  len : Nat
  deriving DecidableEq

/-! ## References -/

section

variable {size : Nat} (subs : Subs size)

/-- The group that two bytes of the substitution refer to, if it is set. -/
def reference (dollar digit : Byte) : Option (Regmatch size) :=
  if dollar ≠ 36 then none
  else if digit = 48 then some subs.whole
  else if inside : 49 ≤ digit.toNat ∧ digit.toNat ≤ 57 then
    subs.sub ⟨digit.toNat - 49, by omega⟩
  else none

/-- The first pass over the substitution, what it adds to `new_l`. -/
def replacementLength : List Byte → Nat
  | [] => 0
  | [_] => 1
  | c :: d :: walk => match reference subs c d with
    | some group => group.length + replacementLength walk
    | none => 1 + replacementLength (d :: walk)

/-- The bytes of the key that a group matched. -/
def groupText (key : List Byte) (group : Regmatch size) : List Byte :=
  (key.drop group.so).take group.length

/-- The second pass, which stores the replacement from `walkbuf` on. -/
def storeReplacement (key : List Byte) : List Byte → List Byte → Nat → Option (List Byte × Nat)
  | [], buf, walkbuf => some (buf, walkbuf)
  | [c], buf, walkbuf => do
    let buf ← store buf walkbuf c
    return (buf, walkbuf + 1)
  | c :: d :: walk, buf, walkbuf => match reference subs c d with
    | some group => do
      let buf ← storeAll buf walkbuf (groupText key group)
      storeReplacement key walk buf (walkbuf + group.length)
    | none => do
      let buf ← store buf walkbuf c
      storeReplacement key (d :: walk) buf (walkbuf + 1)

end

/-! ## The lookup -/

section

variable (garbage : Nat → Byte)

/-- The buffer of the size given, which is grown where it has no room for so many bytes and a
NUL, and its size. -/
def growBuf (buf : List Byte) (bufLen newL : Nat) : Option (List Byte × Nat) := do
  let needed ← intValue (newL + 1)
  if needed > bufLen then do
    let bufLen ← intValue (1 + bufLen + 2 * newL)
    let old ← stringIn buf 0
    let nbuf ← storeAll (malloc garbage bufLen) 0 (old.content ++ [0])
    return (nbuf, bufLen)
  else some (buf, bufLen)

/-- The two passes: the buffer with what is before the match and the replacement, its size and
`new_l`. -/
def buildReplacement (key : CString) (subs : Subs key.length) (replace : CString)
    (buf : List Byte) (bufLen : Nat) : Option (List Byte × Nat × Nat) := do
  let before ← stringIn buf 0
  let newL ← intValue
    (before.length + subs.whole.so + replacementLength subs replace.content)
  let (buf, bufLen) ← growBuf garbage buf bufLen newL
  let tmp ← stringIn buf 0
  let buf ← strncat buf key.content subs.whole.so
  let (buf, walkbuf) ← storeReplacement subs key.content replace.content buf
    (tmp.length + subs.whole.so)
  let buf ← store buf walkbuf 0
  return (buf, bufLen, newL)

/-- What is returned with a buffer. -/
def regexAnswer (buf : List Byte) : Option RegexAnswer := do
  let str ← stringIn buf 0
  return ⟨0, buf, str.length⟩

/-- What follows a match in `dbserver_get`. Nothing is returned where the loop is left. -/
def substitute (key : CString) (subs : Subs key.length) (replace : CString) (buf : List Byte)
    (bufLen : Nat) : Option (Option RegexAnswer) := do
  let (buf, bufLen, newL) ← buildReplacement garbage key subs replace buf bufLen
  if subs.whole.so = subs.whole.eo then
    if subs.whole.so ≥ key.length then some none
    else do
      let built ← stringIn buf 0
      let newL := built.length + 1
      let (buf, _) ← growBuf garbage buf bufLen newL
      let pos := subs.whole.eo + 1
      let more ← key.content[pos - 1]?
      let buf ← store buf (newL - 1 : Nat) more
      let buf ← store buf newL 0
      let buf ← store buf newL 0
      some (← regexAnswer buf)
  else do
    let buf ← store buf newL 0
    some (← regexAnswer buf)

/-- `dbserver_get` of the map of regular expressions. -/
def regexDbserverGet (key : CString) : List RegexRule → Option RegexAnswer
  | [] => some ⟨-2, [], 0⟩
  | rule :: rules => do
    let bufLen ← intValue (2 * key.length + 1)
    let buf ← store (malloc garbage bufLen) 0 0
    match rule.regexec key with
    | none => regexDbserverGet key rules
    | some subs => match ← substitute garbage key subs rule.replace buf bufLen with
      | none => some ⟨-2, [], 0⟩
      | some answer => some answer

end

end Perdition
