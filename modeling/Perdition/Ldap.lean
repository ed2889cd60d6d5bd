import Perdition.StrMemory

/-!
# The LDAP map

`pldap_get_filter_str` and `perdition_ldap_uri` of `perditiondb_ldap.c`, on the memory of their
strings. An access outside the block, and a value that does not fit an `int`, leave no result.
-/
namespace Perdition

open Lib.Block

/-- `memmove` within a block. -/
def memmove (block : List Byte) (target source n : Nat) : Option (List Byte) :=
  if n = 0 then some block else move block target source n

/-! ## The filter -/

/-- The variables of the loop over the filter. -/
structure FilterVars where
  /-- The block of `return_filter`. -/
  returnFilter : List Byte
  /-- `filter_len`. -/
  filterLen : Nat
  /-- `i`. -/
  i : Nat
  /-- `format_percent`. -/
  formatPercent : Bool
  /-- `format_int`. -/
  formatInt : Nat
  deriving DecidableEq

section

variable (garbage : Nat → Byte) (keyStr : CString)

/-- `format_width` and `dead_width`, and the new `i`. -/
def formatWidth (v : FilterVars) : Option (Int × Nat × Nat) :=
  if v.formatInt ≠ 0 then do
    let digits ← stringIn v.returnFilter v.formatInt
    some (atoi digits, v.i - v.formatInt + 2, v.formatInt - 1)
  else some (0, 2, v.i - 1)

/-- The key put in the place of a directive that ends at `i`. The next round begins behind it. -/
def substituteKey (v : FilterVars) : Option FilterVars := do
  let (formatWidth, deadWidth, i) ← formatWidth v
  let formatWidth := if formatWidth < keyStr.length then keyStr.length else formatWidth.toNat
  let wider ← intValue (v.filterLen + formatWidth)
  let filterLen := wider - deadWidth
  let str := resize garbage v.returnFilter (filterLen + 1)
  let str ← memmove str (i + formatWidth) (i + deadWidth) (v.filterLen - i - deadWidth)
  let str ← storeAll str i (List.replicate formatWidth space)
  let str ← storeAll str (i + formatWidth - keyStr.length : Nat) keyStr.content
  let str ← store str filterLen 0
  return ⟨str, filterLen, i + formatWidth, false, 0⟩

/-- A round of the loop. -/
def filterRound (v : FilterVars) : Option FilterVars := do
  let c ← v.returnFilter[v.i]?
  if c = percent then some { v with i := v.i + 1, formatPercent := !v.formatPercent }
  else if v.formatPercent && isDigit c then
    some { v with i := v.i + 1, formatInt := if v.formatInt = 0 then v.i else v.formatInt }
  else if v.formatPercent && c = 115 then substituteKey garbage keyStr v
  else some { v with i := v.i + 1, formatPercent := false, formatInt := 0 }

/-- The loop. Every round passes a byte of the filter. -/
def filterRounds : Nat → FilterVars → Option (List Byte)
  | 0, _ => none
  | rounds + 1, v =>
    if v.i < v.filterLen then do filterRounds rounds (← filterRound garbage keyStr v)
    else some v.returnFilter

/-- `pldap_get_filter_str`: the block that is returned. -/
def pldapGetFilterStr (filterStr : CString) : Option (List Byte) := do
  let _ ← intValue keyStr.length
  let filterLen ← intValue filterStr.length
  filterRounds garbage keyStr (filterStr.length + 1)
    ⟨filterStr.content ++ [0], filterLen, 0, false, 0⟩

end

/-! ## The list of URIs -/

/-- `strchr`: the string from the first such byte on. -/
def strchr (text : List Byte) (c : Byte) : Option (List Byte) :=
  match text.dropWhile (· != c) with
  | [] => none
  | found => some found

/-- `while (*start == ' ') start++;`. -/
def skipSpaces (start : List Byte) : List Byte := start.dropWhile (· == space)

/-- What `perdition_ldap_uri` reads of an `LDAPURLDesc`. -/
structure LdapUrlDesc where
  /-- `lud_scheme`. -/
  ludScheme : CString
  /-- `lud_host`. -/
  ludHost : CString
  /-- `lud_port`, which is not negative. -/
  ludPort : Nat

/-- The loop that counts the hosts from `start` on. Every round passes a space. -/
def countHosts : Nat → List Byte → Nat → Option Nat
  | 0, _, _ => none
  | rounds + 1, start, nhost => match strchr start space with
    | none => some nhost
    | some start => do countHosts rounds (skipSpaces start) (← intValue (nhost + 1))

section

variable (ldapPort : Nat) (lud : LdapUrlDesc)

/-- What `calloc` is asked for, a `size_t`. -/
def uriSize (nhost : Nat) : Nat := (lud.ludScheme.length + 9) * nhost + lud.ludHost.length + 1

/-- `if (*uri) strcat(uri, " ");`. -/
def addSeparator (uri : List Byte) : Option (List Byte) := do
  if (← uri[0]?) ≠ 0 then strcat uri [space] else some uri

/-- The port, unless it is the default. `sprintf` at the end of the string is one more `strcat`. -/
def addPort (uri : List Byte) : Option (List Byte) :=
  if lud.ludPort ≠ ldapPort then do
    let uri ← strcat uri (bytes ":")
    strcat uri (decimal lud.ludPort)
  else some uri

/-- The URI of the host of this length at `start`. -/
def addUri (start : List Byte) (length : Nat) (uri : List Byte) : Option (List Byte) := do
  let uri ← addSeparator uri
  let uri ← strcat uri lud.ludScheme.content
  let uri ← strcat uri (bytes "://")
  let uri ← strncat uri start length
  addPort ldapPort lud uri

/-- The loop that adds the hosts from `start` on. Every round passes a host. -/
def uriRounds : Nat → List Byte → List Byte → Option (List Byte)
  | 0, _, _ => none
  | rounds + 1, start, uri =>
    let start := skipSpaces start
    let host := start.takeWhile (· != space)
    if host = [] then some uri
    else do
      let uri ← addUri ldapPort lud start host.length uri
      match strchr start space with
      | none => some uri
      | some start => uriRounds rounds start uri

/-- `perdition_ldap_uri`, with the `LDAP_PORT` of `ldap.h`: the block that is returned. -/
def perditionLdapUri : Option (List Byte) := do
  let nhost ← countHosts (lud.ludHost.length + 1) (skipSpaces lud.ludHost.content) 1
  uriRounds ldapPort lud (lud.ludHost.length + 1) lud.ludHost.content
    (List.replicate (uriSize lud nhost % 2 ^ 64) 0)

end

end Perdition
