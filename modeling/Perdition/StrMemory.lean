import Perdition.Memory
import Perdition.Str

/-!
# Strings in memory

`str_replace` and `strrstr` on the memory of their strings, access by access. An access outside the
block, and a loop that does not end, leave no result.
-/
namespace Perdition

open Lib.Block

/-- The string at a position of a block. -/
def stringIn (block : List Byte) (place : Int) : Option CString :=
  if 0 ≤ place ∧ 0 ∈ block.drop place.toNat then some (cstr (block.drop place.toNat)) else none

/-- `memmove(p, p+match_len-subst_len, strlen(p+match_len-subst_len)+1)`. -/
def shiftTail (block : List Byte) (p matchLen substLen : Nat) : Option (List Byte) := do
  let source : Int := p + matchLen - substLen
  let tail ← stringIn block source
  move block p source (tail.length + 1)

/-- The loop of `str_replace` over the occurrences of one match, from `p` on. -/
def strReplaceLoop (garbage : Nat → Byte) (match_ subst : CString) :
    Nat → List Byte → Nat → Option (List Byte)
  | 0, _, _ => none
  | rounds + 1, str, p => do
    let rest ← stringIn str p
    match strstr rest.content match_.content with
    | none => some str
    | some place =>
      let p := p + place
      let str ←
        if subst.length > match_.length then do
          let whole ← stringIn str 0
          let str := resize garbage str (whole.length + (subst.length - match_.length))
          shiftTail str p match_.length subst.length
        else if subst.length < match_.length then shiftTail str p match_.length subst.length
        else some str
      let str ← storeAll str p subst.content
      strReplaceLoop garbage match_ subst rounds str (p + subst.length)

/-- `str_replace`, for an even number of strings: the block with the new string, or NULL. Every
round passes a match, so the size of the block bounds the rounds. -/
def strReplaceIn (garbage : Nat → Byte) (str : List Byte) (pairs : List (CString × CString)) :
    Option (Option (List Byte)) :=
  if pairs.isEmpty then some none
  else (pairs.foldlM (fun str pair =>
    strReplaceLoop garbage pair.1 pair.2 (str.length + 1) str 0) str).map some

/-! ## Searching -/

/-- `strncmp` of two strings, which is left at the first difference and at a NUL, finds no difference
in the first `n` bytes. -/
def strncmpIn : Nat → List Byte → List Byte → Option Bool
  | 0, _, _ => some true
  | n + 1, a :: left, b :: right =>
    if a ≠ b then some false else if a = 0 then some true else strncmpIn n left right
  | _ + 1, _, _ => none

/-- `strlen` of the string at the start of a block. -/
def strlenIn (block : List Byte) : Option Nat := block.findIdx? (· == 0)

/-- The loop of `strrstr`. The number is one more than `p - haystack`, so at zero `p` is before the
haystack. -/
def strrstrLoop (haystack needle : List Byte) (needleLen : Nat) : Nat → Option (Option Nat)
  | 0 => some none
  | p + 1 => do
    if ← strncmpIn needleLen (haystack.drop p) needle then return some p
    else strrstrLoop haystack needle needleLen p

/-- `strrstr` of the strings at the start of two blocks: the offset of what it returns, or NULL. -/
def strrstrIn (haystack needle : List Byte) : Option (Option Nat) := do
  if (← haystack[0]?) = 0 then return none
  if (← needle[0]?) = 0 then return some 0
  let haystackLen ← strlenIn haystack
  let needleLen ← strlenIn needle
  if haystackLen < needleLen then return none
  strrstrLoop haystack needle needleLen (haystackLen - needleLen + 1)

end Perdition
