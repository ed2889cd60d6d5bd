import Perdition.Getserver
import Perdition.Memory

/-!
# Expanding query formats

`getserver_key_str` with the memory it writes to. The string grows by what is missing and a chunk, and
the cursor is computed anew where it did. A store outside the string leaves no result.
-/
namespace Perdition

open Lib.Block

/-- `_GKS_CHUNK_SIZE`. -/
def gksChunkSize : Nat := 32

/-- `realloc` of a block, with what the new bytes happen to hold. -/
def realloc (garbage : Nat → Byte) (block : List Byte) (size : Nat) : List Byte :=
  block.take size ++ malloc garbage (size - block.length)

/-- `key_str` and the variables of its size. -/
structure KeyBuffer where
  /-- The block `key_str` points to. -/
  block : List Byte
  /-- `key_str_size`. -/
  size : Nat
  /-- `key_str_space`. -/
  space : Nat
  /-- `key_str_p - key_str`. -/
  cursor : Nat

/-- `_GSK_STR_ADD` of so many bytes of a string. -/
def KeyBuffer.strAdd (garbage : Nat → Byte) (buffer : KeyBuffer) (str : List Byte) (size : Nat) :
    Option KeyBuffer :=
  let buffer := if buffer.space < size then
      let keySize := buffer.size + (size + gksChunkSize)
      let keySpace := buffer.space + (size + gksChunkSize)
      { block := realloc garbage buffer.block keySize
        size := keySize
        space := keySpace
        cursor := keySize - keySpace }
    else buffer
  (storeAll buffer.block buffer.cursor (strncpyBytes (str.take size))).map fun block =>
    { buffer with block := block, space := buffer.space - size, cursor := buffer.cursor + size }

/-- The variables of the loop of `getserver_key_str`. -/
structure KeyState where
  /-- The string. -/
  buffer : KeyBuffer
  /-- `domain_str`, where it starts in the user. -/
  domainStr : Option Nat
  /-- `user_str_size`. -/
  userStrSize : Nat
  /-- `have_escape`. -/
  haveEscape : Bool

/-- The variables before the loop. -/
def KeyState.start : KeyState := ⟨⟨[], 0, 0, 0⟩, none, 0, false⟩

/-- `_GSK_SPLIT_USER`. A user that was split is not split again. -/
def KeyState.splitUser (opt : Options) (user : CString) (state : KeyState) : KeyState :=
  if state.domainStr.isSome then state
  else match strrstr user.content opt.domainDelimiter.content with
    | none => { state with userStrSize := user.length }
    | some place => { state with userStrSize := place, domainStr := some (place + 1) }

/-- The body of the `switch`: what an escape adds, and the variables after it. -/
def KeyState.escape (opt : Options) (user : CString) (addresses : Addresses) (state : KeyState)
    (c : Byte) : Option (KeyState × List Byte) :=
  match c with
  | 85 => some (state, user.content)
  | 117 =>
    let state := state.splitUser opt user
    some (state, user.content.take state.userStrSize)
  | 68 => some (state, opt.domainDelimiter.content)
  | 100 =>
    let state := state.splitUser opt user
    some (state, match state.domainStr with
      | none => []
      | some place => user.content.drop place)
  | 105 => some (state, addresses.fromStr.content)
  | 73 => some (state, addresses.toStr.content)
  | 112 => some (state, addresses.fromPort.content)
  | 80 => some (state, addresses.toPort.content)
  | 92 => some (state, [backslash])
  | _ => none

/-- One string added, with the variables of the loop. -/
def KeyState.add (garbage : Nat → Byte) (state : KeyState) (str : List Byte) : Option KeyState :=
  (state.buffer.strAdd garbage str str.length).map fun buffer => { state with buffer := buffer }

/-- The loop of `getserver_key_str`. An unknown escape returns a null pointer. -/
def keyLoop (garbage : Nat → Byte) (opt : Options) (user : CString) (addresses : Addresses) :
    KeyState → List Byte → Option (Option KeyState)
  | state, [] => some (some state)
  | state, c :: rest =>
    if c = backslash ∧ state.haveEscape = false then
      keyLoop garbage opt user addresses { state with haveEscape := true } rest
    else if state.haveEscape = false then do
      keyLoop garbage opt user addresses (← state.add garbage [c]) rest
    else match state.escape opt user addresses c with
      | none => some none
      | some (state, str) => do
        let state ← state.add garbage str
        keyLoop garbage opt user addresses { state with haveEscape := false } rest

/-- `getserver_key_str`: the block it returns, or a null pointer. -/
def getserverKeyBlock (garbage : Nat → Byte) (opt : Options) (user : CString)
    (addresses : Addresses) (queryFmt : List Byte) : Option (Option (List Byte)) := do
  match ← keyLoop garbage opt user addresses .start queryFmt with
  | none => return none
  | some state => return some (← state.add garbage [0]).buffer.block

end Perdition
