import Perdition.Bytes

/-!
# Searching and editing strings

The functions of `str.c` that search a string and edit it, on the bytes of the string. Where the
code would look outside the string there is no result.
-/
namespace Perdition

/-- `strstr`: where the needle first occurs. -/
def strstr (haystack needle : List Byte) : Option Nat :=
  if needle.isPrefixOf haystack then some 0
  else match haystack with
    | [] => none
    | _ :: rest => (strstr rest needle).map (· + 1)

/-- The search of `strrstr` from the place `p` down to the start. -/
def strrstrFrom (haystack needle : List Byte) : Nat → Option Nat
  | 0 => if needle.isPrefixOf haystack then some 0 else none
  | p + 1 =>
    if needle.isPrefixOf (haystack.drop (p + 1)) then some (p + 1)
    else strrstrFrom haystack needle p

/-- `strrstr`: where the needle last occurs. -/
def strrstr (haystack needle : List Byte) : Option Nat :=
  if haystack = [] then none
  else if needle = [] then some 0
  else if haystack.length < needle.length then none
  else strrstrFrom haystack needle (haystack.length - needle.length)

/-- `strcasestr`: the first place from which the rest of the haystack is the needle in any case. -/
def strcasestrFrom (haystack needle : List Byte) (place : Nat) : Option Nat :=
  if haystack.length < needle.length then none
  else if haystack.map toLower = needle.map toLower then some place
  else match haystack with
    | [] => none
    | _ :: rest => strcasestrFrom rest needle (place + 1)

/-- `strcasestr`. -/
def strcasestr (haystack needle : CString) : Option Nat :=
  strcasestrFrom haystack.content needle.content 0

/-- `strcasedelimword` finds its word, which starts the haystack or follows a delimiter, and begins
with a delimiter or a line feed. A NUL counts as a delimiter. -/
def strcasedelimword (haystack needle delim : CString) : Option Nat :=
  match strcasestrFrom haystack.content needle.content 0 with
  | none => none
  | some found =>
    let delimits (b : Option Byte) := match b with
      | none => true
      | some b => delim.content.contains b
    if found ≠ 0 ∧ !delimits haystack.content[found - 1]? then none
    else if haystack.content[found]? ≠ some lf ∧ !delimits haystack.content[found]? then none
    else some found

/-- `strcaseword`. -/
def strcaseword (haystack needle : CString) : Option Nat :=
  strcasedelimword haystack needle (lit " ")

/-! ## Replacing -/

/-- The inner loop of `str_replace` for one pair, from `p` on. Every round passes a needle, so the
length of the string bounds the rounds. -/
def strReplaceFrom (needle subst : List Byte) : Nat → List Byte → List Byte
  | 0, rest => rest
  | rounds + 1, rest =>
    match strstr rest needle with
    | none => rest
    | some place => rest.take place ++ subst ++
        strReplaceFrom needle subst rounds (rest.drop (place + needle.length))

/-- One pair of `str_replace`. A replacement longer than the needle is written past the block that
`realloc` returned, at the first occurrence; then there is no result. -/
def strReplacePair (text needle subst : CString) : Option CString :=
  if needle.length < subst.length ∧ (strstr text.content needle.content).isSome then none
  else some (cstr (strReplaceFrom needle.content subst.content text.length text.content))

/-- `str_replace`. -/
def strReplace (text : CString) : List (CString × CString) → Option CString
  | [] => some text
  | (needle, subst) :: pairs => do strReplace (← strReplacePair text needle subst) pairs

/-! ## Lists of words in a string -/

/-- `strncmp(at, delimiter, strlen(delimiter))` finds no difference. -/
def startsWith (text delimiter : List Byte) : Bool := delimiter.isPrefixOf text

/-- The search of `str_append_substring_if_missing` from the cursor on: the needle occurs after a
delimiter and before a delimiter or the end. The test for the start of the string compares with
`new_haystack`, which is null there, so the bytes before the cursor are always compared. -/
def findSubstring (haystack needle delimiter : List Byte) : Nat → Nat → Option Bool
  | 0, _ => some false
  | rounds + 1, cursor =>
    match strstr (haystack.drop cursor) needle with
    | none => some false
    | some place =>
      let found := cursor + place
      if found < delimiter.length then none
      else if !startsWith (haystack.drop (found - delimiter.length)) delimiter then
        findSubstring haystack needle delimiter rounds (found + needle.length)
      else
        let after := haystack.drop (found + needle.length)
        if !after.isEmpty && !startsWith after delimiter then
          findSubstring haystack needle delimiter rounds (found + needle.length)
        else some true

/-- `str_append_substring_if_missing`. -/
def strAppendSubstringIfMissing (haystack needle delimiter : CString) : Option CString := do
  let found ← findSubstring haystack.content needle.content delimiter.content
    (haystack.length + 1) 0
  if found then some haystack else some (haystack ++ delimiter ++ needle)

/-- The loop of `str_delete_substring` from `start` on. A needle is removed with the delimiter
before it, so a needle at the start moves bytes to before the string. -/
def deleteSubstring (needle delimiter : List Byte) : Nat → List Byte → Nat → Option (List Byte)
  | 0, haystack, _ => some haystack
  | rounds + 1, haystack, start =>
    match strstr (haystack.drop start) needle with
    | none => some haystack
    | some place =>
      let found := start + place
      if found ≠ 0 ∧ (found < delimiter.length ∨
          !startsWith (haystack.drop (found - delimiter.length)) delimiter) then
        deleteSubstring needle delimiter rounds haystack (found + needle.length)
      else
        let after := haystack.drop (found + needle.length)
        if !after.isEmpty && !startsWith after delimiter then
          deleteSubstring needle delimiter rounds haystack (found + needle.length)
        else if found < delimiter.length then none
        else
          let start := found - delimiter.length
          deleteSubstring needle delimiter rounds (haystack.take start ++ after) start

/-- `str_delete_substring`. -/
def strDeleteSubstring (haystack needle delimiter : CString) : Option CString :=
  (deleteSubstring needle.content delimiter.content (haystack.length + 1) haystack.content 0).map
    cstr

end Perdition
