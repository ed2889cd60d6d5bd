import Perdition.Acap
import Perdition.Memory
import Perdition.StrMemory

/-!
# ACAP strings in memory

What `acap.c`, `managesieve_response_str` and `managesieve_write_list` allocate and store into it. A
store outside a block, and a string without a NUL, leave no result. No string is longer than a signed
number counts, so `%zd` prints a length as its digits.
-/
namespace Perdition

open Lib.Block

/-- `strcpy`. -/
def strcpy (block : List Byte) (src : List Byte) : Option (List Byte) :=
  storeAll block 0 (src ++ [0])

/-! ## Strings and headers -/

/-- `log_10`. -/
def log_10 (n : Nat) : Nat := if n / 10 = 0 then 0 else log_10 (n / 10) + 1

/-- `n_len`. -/
def nLen (n : Nat) : Nat := log_10 n + 1

/-- `acap_quoted_from_str`: the block `a`. -/
def acapQuotedFromStr (garbage : Nat → Byte) (str : CString) : Option (List Byte) := do
  let a ← strcpy (malloc garbage (1 + str.length + 2)) (bytes "\"")
  let a ← strcat a str.content
  strcat a (bytes "\"")

/-- `acap_any_literal_from_str`: the block `a`. -/
def acapAnyLiteralFromStr (garbage : Nat → Byte) (str extra : CString) : Option (List Byte) :=
  strcpy (malloc garbage (1 + nLen str.length + extra.length + 2))
    (bytes "\x7b" ++ decimal str.length ++ extra.content ++ bytes "\x7d")

/-- `acap_from_str`: the block `a`, and the string `b`. -/
def acapFromStrBlock (garbage : Nat → Byte) (str : CString) (flag : Flag) :
    Option (List Byte × Option CString) :=
  if !str.content.contains cr && !str.content.contains lf then
    (acapQuotedFromStr garbage str).map (·, none)
  else if flag.has perditionClient then
    (acapAnyLiteralFromStr garbage str (lit "+")).map (·, some str)
  else (acapAnyLiteralFromStr garbage str .empty).map (·, some str)

/-! ## Response codes -/

/-- `out`, whose slots are null or point to a block, and `out_p - out`. -/
structure Fragments where
  /-- The slots. -/
  out : List (Option (List Byte))
  /-- The place of `out_p`. -/
  outP : Nat

/-- `*out_p = block`. -/
def Fragments.set (fragments : Fragments) (block : List Byte) : Option Fragments :=
  (store fragments.out fragments.outP (some block)).map fun out => { fragments with out := out }

/-- `*out_p`, where it is not null. -/
def Fragments.get (fragments : Fragments) : Option (List Byte) :=
  match fragments.out[fragments.outP]? with
  | some (some block) => some block
  | _ => none

/-- `strdup`. -/
def strdup (garbage : Nat → Byte) (str : CString) : Option (List Byte) :=
  strcpy (malloc garbage (str.length + 1)) str.content

/-- The loop of `managesieve_response_str` over the arguments. -/
def responseArgs (garbage : Nat → Byte) (flag : Flag) :
    List CString → Fragments → Option Fragments
  | [], fragments => some fragments
  | arg :: rest, fragments => do
    let (a, b) ← acapFromStrBlock garbage arg flag
    let text ← fragments.get
    let text := resize garbage text ((← strlenIn text) + 1 + (← strlenIn a) + 1)
    let text ← strcat text [space]
    let text ← strcat text (cstr a).content
    let fragments ← fragments.set text
    match b with
    | none => responseArgs garbage flag rest fragments
    | some b => do
      let fragments ← { fragments with outP := fragments.outP + 1 }.set (← strdup garbage b)
      responseArgs garbage flag rest fragments

/-- `managesieve_response_str`, the slots it returns. -/
def managesieveResponseBlocks (garbage : Nat → Byte) (rc : ManagesieveResponseCode) (flag : Flag) :
    Option (List (Option (List Byte))) := do
  let fragments : Fragments := ⟨List.replicate (rc.arg.length + 2) none, 0⟩
  let text ← strcpy (malloc garbage (1 + rc.atom.length + 1)) (bytes "(")
  let fragments ← fragments.set (← strcat text rc.atom.content)
  let fragments ← responseArgs garbage flag rc.arg fragments
  let text ← fragments.get
  let fragments ← fragments.set (← strcat (resize garbage text ((← strlenIn text) + 2)) (bytes ")"))
  return fragments.out

/-! ## Lines -/

/-- The first loop of `managesieve_write_list`. -/
def writeListLen : List (Option CString) → Nat → Nat
  | [], len => len
  | none :: rest, len => writeListLen rest len
  | some str :: rest, len => writeListLen rest (len + (str.length + 1))

/-- The second loop of `managesieve_write_list`, with `x` strings in `out`. -/
def writeListLoop : List (Option CString) → Nat → List Byte → Option (List Byte)
  | [], _, out => some out
  | none :: rest, x, out => writeListLoop rest x out
  | some str :: rest, x, out => do
    let out ← if x ≠ 0 then strcat out [space] else some out
    writeListLoop rest (x + 1) (← strcat out str.content)

/-- `managesieve_write_list`, the line that it writes, or NULL. -/
def managesieveWriteListBlock (garbage : Nat → Byte) (strings : List (Option CString)) :
    Option (Option (List Byte)) := do
  let len := writeListLen strings 0
  if len = 0 then return none
  let out ← store (malloc garbage len) 0 0
  return some (← writeListLoop strings 0 out)

end Perdition
