import Perdition.Getserver
import Perdition.Memory

/-!
# Rendering map entries

`user_server_port_display` and `user_server_port_length` of `server_port.c`. A store outside the
string it renders to, or a server that is null, leaves no result.
-/
namespace Perdition

open Lib.Block

/-- `strlen` of the string at the start of a block. -/
def strlenBlock (block : List Byte) : Option Nat := block.findIdx? (· == 0)

/-- The user and the delimiter of `user_server_port_display`. -/
def displayUser (opt : Options) (block : List Byte) : Option CString → Option (List Byte)
  | none => some block
  | some user => do strcat (← strcat block user.content) opt.domainDelimiter.content

/-- The port of `user_server_port_display`: a NUL behind the NUL of the string, and a colon for
that. -/
def displayPort (block : List Byte) : Option CString → Option (List Byte)
  | none => some block
  | some port => do
    let block ← store block ((← strlenBlock block) + 1) 0
    let block ← store block (← strlenBlock block) 58
    strcat block port.content

/-- `user_server_port_display`. -/
def userServerPortDisplay (opt : Options) (block : List Byte) :
    Option UserServerPort → Option (List Byte)
  | none => some block
  | some usp => do
    let block ← store block 0 0
    let block ← displayUser opt block usp.user
    let block ← strcat block (← usp.server).content
    displayPort block usp.port

/-- `user_server_port_length`. -/
def userServerPortLength (opt : Options) : Option UserServerPort → Nat
  | none => 0
  | some usp =>
    (match usp.user with
      | none => 0
      | some user => user.length + opt.domainDelimiter.length) +
    (match usp.server with
      | none => 0
      | some server => server.length) +
    (match usp.port with
      | none => 0
      | some port => port.length + 1)

end Perdition
