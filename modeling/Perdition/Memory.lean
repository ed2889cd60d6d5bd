import Perdition.Capability
import Perdition.Queue
import Perdition.Lib.Block

/-!
# Strings built by hand

What `queue_to_string` and the two `mangle_capability` functions store into the memory they
allocate, store by store. A store outside the block leaves no result.
-/
namespace Perdition

open Lib.Block

/-! ## Memory -/

/-- The block that `malloc` returns, with whatever it holds. -/
def malloc (garbage : Nat → Byte) (size : Nat) : List Byte := (List.range size).map garbage

@[simp] theorem malloc_length (garbage : Nat → Byte) (size : Nat) :
    (malloc garbage size).length = size := by
  simp [malloc]

/-- `strncat` onto the string in a block, which ends at the first NUL in it. At most `n` bytes are
copied, then a NUL. -/
def strncat (block : List Byte) (src : List Byte) (n : Nat) : Option (List Byte) := do
  let «end» ← block.findIdx? (· == 0)
  storeAll block «end» (src.take n ++ [0])

/-- `strcat`. -/
def strcat (block : List Byte) (src : List Byte) : Option (List Byte) :=
  strncat block src src.length

/-- The string at the start of a block ends at its first NUL. -/
theorem findIdx?_string {written : List Byte} (noNul : 0 ∉ written) (rest : List Byte) :
    (written ++ 0 :: rest).findIdx? (· == 0) = some written.length := by
  have before : written.findIdx? (· == 0) = none := by
    rw [List.findIdx?_eq_none_iff]
    intro b member
    have other : b ≠ 0 := fun same => noNul (same ▸ member)
    simpa using other
  rw [List.findIdx?_append, before]
  simp [List.findIdx?_cons]

/-- Bytes are added behind the string in a block that has room for them, and leave what is behind
them as it was. -/
theorem strncat_string {written src rest : List Byte} (noNul : 0 ∉ written) {n : Nat}
    (room : (src.take n).length ≤ rest.length) :
    strncat (written ++ 0 :: rest) src n =
      some (written ++ src.take n ++ 0 :: rest.drop (src.take n).length) := by
  have split_ : written ++ 0 :: rest =
      written ++ (0 :: rest).take ((src.take n).length + 1) ++
        rest.drop (src.take n).length := by
    rw [List.append_assoc, ← List.drop_succ_cons (a := (0 : Byte)), List.take_append_drop]
  have place := findIdx?_string noNul rest
  rw [strncat, place, Option.bind_eq_bind, Option.bind_some, split_,
    storeAll_inside _ _ _ _ (by
      rw [List.length_take, List.length_cons, List.length_append, List.length_singleton]
      omega)]
  simp

/-- A string is added behind the string in a block that has room for it. -/
theorem strcat_string {written src rest : List Byte} (noNul : 0 ∉ written)
    (room : src.length ≤ rest.length) :
    strcat (written ++ 0 :: rest) src =
      some (written ++ src ++ 0 :: rest.drop src.length) := by
  have whole : src.take src.length = src := List.take_length
  have added := @strncat_string written src rest noNul src.length (by rwa [whole])
  rwa [whole] at added

/-! ## `queue_to_string` -/

/-- The length that the first loop of `queue_to_string` counts. -/
def queueLength (q : Queue) : Nat := q.foldl (fun length t => length + (1 + t.len)) 0

/-- The body of the second loop: the block and `pos`. -/
def putToken (state : List Byte × Int) (t : Token) : Option (List Byte × Int) := do
  let copied ← if t.len > 0 then
      (storeAll state.1 state.2 (strncpyBytes t.buf)).map (·, state.2 + t.len)
    else some state
  let block ← store copied.1 copied.2 space
  return (block, copied.2 + 1)

/-- `queue_to_string` up to its result, which is the string at the start of the block. -/
def queueToStringBlock (garbage : Nat → Byte) (q : Queue) : Option (List Byte) := do
  let filled ← q.foldlM putToken (malloc garbage (queueLength q), 0)
  store filled.1 (filled.2 - 1) 0

/-! ## `mangle_capability` -/

/-- A string and where it is in memory. -/
structure TextAt where
  /-- The string. -/
  text : CString
  /-- The address of its first byte. -/
  address : Nat
  /-- No object is larger than the difference of two pointers can be. -/
  small : text.length < 2 ^ 63
  /-- The address space does not end within it. -/
  fits : address + text.length < 2 ^ 64

/-- The largest `int`. -/
def intMax : Nat := 2 ^ 31 - 1

/-- A value of an `int`. -/
def intValue (n : Nat) : Option Nat := if n ≤ intMax then some n else none

/-- The first loop of the `mangle_capability` functions from `start` on: `count`, which has no value
once it is more than an `int` can be. -/
def countDelimiters (delimiter : List Byte) : Nat → List Byte → Nat → Option Nat
  | 0, _, _ => none
  | rounds + 1, start, count =>
    match strstr start delimiter with
    | none => some count
    | some place =>
      if count < intMax then
        countDelimiters delimiter rounds (start.drop (place + delimiter.length)) (count + 1)
      else none

/-- `n_len`, with room for a tail. -/
def mangleLength (capability delimiter tail : CString) : Option UInt64 := do
  let count ← countDelimiters delimiter.content (capability.length + 1) capability.content 0
  return UInt64.ofNat capability.length - UInt64.ofNat count * UInt64.ofNat delimiter.length +
    UInt64.ofNat count * UInt64.ofNat crlf.length + UInt64.ofNat tail.length

/-- The second loop of the `mangle_capability` functions and the `strncat` after it. The last
length is `end - start` where `end` is null. -/
def manglePieces (delimiter : List Byte) (capability : TextAt) :
    Nat → Nat → List Byte → Option (List Byte)
  | 0, _, _ => none
  | rounds + 1, start, block => do
    let rest := capability.text.content.drop start
    match strstr rest delimiter with
    | none => strncat block rest (2 ^ 64 - (capability.address + start))
    | some place =>
      let block ← strncat block rest place
      let block ← strcat block crlf
      manglePieces delimiter capability rounds (start + place + delimiter.length) block

/-- The block after the second loop. -/
def mangleBlock (capability : TextAt) (delimiter tail : CString) : Option (List Byte) := do
  let size ← mangleLength capability.text delimiter tail
  manglePieces delimiter.content capability (capability.text.length + 1) 0
    (List.replicate (size + 1).toNat 0)

/-- `pop3_in_mangle_capability`, the block it returns. -/
def pop3InMangleBlock (capability : TextAt) (delimiter : CString) : Option (List Byte) := do
  let block ← mangleBlock capability delimiter (lit "\r\n.\r\n")
  strcat block (lit "\r\n.\r\n").content

/-- `managesieve_mangle_capability`, the block it returns. -/
def managesieveMangleBlock (capability : TextAt) : Option (List Byte) :=
  mangleBlock capability managesieveCapaDelimiter .empty

end Perdition
