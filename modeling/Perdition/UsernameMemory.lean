import Perdition.Lib.Heap
import Perdition.Memory
import Perdition.Username

/-!
# User names in memory

`username.c` with the strings it allocates, writes and frees. Memory that is not allocated and a
store outside a block leave no result.
-/
namespace Perdition

open Lib Lib.Block

/-- The string at an address. -/
def stringAt (heap : Heap Byte) (p : Nat) : Option CString := do
  let block ← heap.block p
  if 0 ∈ block then some (cstr block) else none

/-- `strn_tolower` of so many bytes from a place on. -/
def strnTolower (place : Nat) : Nat → List Byte → Option (List Byte)
  | 0, block => some block
  | count + 1, block => do
    let b ← block[place]?
    let block ← store block place (toLower b)
    strnTolower (place + 1) count block

/-- The writes of `username_strip` into its new string. -/
def stripInto (name : CString) (len : Nat) (block : List Byte) : Option (List Byte) := do
  let block ← storeAll block 0 (strncpyBytes (name.content.take len))
  store block len 0

/-- The writes of `username_add_domain` into its new string. -/
def addInto (name delimiter domainpart : CString) (block : List Byte) : Option (List Byte) := do
  let block ← storeAll block 0 (name.content ++ [0])
  let block ← strcat block delimiter.content
  strcat block domainpart.content

section
variable (opt : Options) (garbage : Nat → Byte) (heap : Heap Byte) (username : Nat) (state : Flag)

/-- `username_strip`. -/
def usernameStripAt : Option (Nat × Heap Byte) :=
  if !opt.stripDomain.has state then some (username, heap)
  else if state = stateGetServer ∧ opt.clientServerSpecification then some (username, heap)
  else do
    let name ← stringAt heap username
    match strrstr name.content opt.domainDelimiter.content with
    | none => some (username, heap)
    | some len =>
      let newStr := heap.alloc (malloc garbage (len + 1))
      let heap ← newStr.2.write newStr.1 (stripInto name len)
      return (newStr.1, heap)

/-- The new string of `username_add_domain`. -/
def addedAt (name domainpart : CString) : Option (Nat × Heap Byte) := do
  let newStr := heap.alloc
    (malloc garbage (name.length + opt.domainDelimiter.length + domainpart.length + 1))
  let heap ← newStr.2.write newStr.1 (addInto name opt.domainDelimiter domainpart)
  return (newStr.1, heap)

/-- `username_add_domain`; NULL where `getnameinfo` fails. -/
def usernameAddDomainAt (platform : Platform) (stripDepth : Nat) :
    Option (Option Nat × Heap Byte) :=
  let keep := some (some username, heap)
  let add (name domainpart : CString) : Option (Option Nat × Heap Byte) := do
    let added ← addedAt opt garbage heap name domainpart
    return (some added.1, added.2)
  if !opt.addDomain.has state then keep
  else do
    let name ← stringAt heap username
    if (strstr name.content opt.domainDelimiter.content).isSome then keep
    else match opt.explicitDomain with
      | some domainpart => add name domainpart
      | none => match platform.sockname with
        | none => keep
        | some none => some (none, heap)
        | some (some host) => match stripLevels stripDepth host.content with
          | none => keep
          | some [] => keep
          | some domainpart => add name (cstr domainpart)

/-- `username_lower_case`. -/
def usernameLowerCaseAt : Option (Nat × Heap Byte) :=
  if !opt.lowerCase.has state then some (username, heap)
  else do
    let name ← stringAt heap username
    let newStr := heap.alloc (name.content ++ [0])
    let heap ← newStr.2.write newStr.1 (strnTolower 0 name.length)
    return (newStr.1, heap)

/-- `username_mangle`. -/
def usernameMangleAt (platform : Platform) : Option (Option Nat × Heap Byte) := do
  let stripped ← usernameStripAt opt garbage heap username state
  let added ← usernameAddDomainAt opt garbage stripped.2 stripped.1 state platform
    opt.addDomainStripDepth
  match added.1 with
  | none => return (none, added.2)
  | some result =>
    let heap ← added.2.release stripped.1 result username
    let lowered ← usernameLowerCaseAt opt heap result state
    let heap ← lowered.2.release result lowered.1 username
    return (some lowered.1, heap)

end

end Perdition
