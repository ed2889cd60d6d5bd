import Perdition.CommandLine
import Perdition.Memory

/-!
# The text of an SSL mode

The array `ssl_mode` of `log_options_ssl_str`, and what is written to it. A store outside the array,
or through `ssl_mode_p` where it is null, leaves no result.
-/
namespace Perdition.Settings

open Lib.Block

/-- `ssl_mode` and `ssl_mode_p`, which is the place in the array it points to. -/
structure ModeText where
  /-- The array. -/
  block : List Byte
  /-- Where the next name is written. -/
  place : Option Nat

/-- The size of `ssl_mode`. -/
def sslModeSize : Nat := 40

/-- `LOG_OPTIONS_ADD_STR`. -/
def ModeText.addStr (text : ModeText) (str : CString) : Option ModeText := do
  let place ← text.place
  let comma ← if place ≠ 0 then (store text.block place 44).map (·, place + 1)
    else some (text.block, place)
  let block ← storeAll comma.1 comma.2 (str.content ++ [0])
  return ⟨block, some (comma.2 + str.length)⟩

/-- `LOG_OPTIONS_ADD_STR` under a condition. -/
def ModeText.addIf (condition : Bool) (str : CString) (text : ModeText) : Option ModeText :=
  if condition then text.addStr str else some text

/-- The `default` of the `switch`. -/
def ModeText.modes (mode : Flag) (text : ModeText) : Option ModeText :=
  if mode.has sslModeSslListen && mode.has sslModeSslOutgoing then text.addStr (lit "ssl_all")
  else if mode.has sslModeTlsListen && mode.has sslModeTlsOutgoing then
    text.addStr (lit "tls_all")
  else do
    let text ← text.addIf (mode.has sslModeSslListen) (lit "ssl_listen")
    let text ← text.addIf (mode.has sslModeSslOutgoing) (lit "ssl_outgoing")
    let text ← text.addIf (mode.has sslModeTlsListen) (lit "tls_listen")
    let text ← text.addIf (mode.has sslModeTlsOutgoing) (lit "tls_outgoing")
    if text.place = some 0 then return ⟨← store text.block 0 0, text.place⟩
    else return text

/-- What follows the `switch`. -/
def ModeText.forced (mode : Flag) (text : ModeText) : Option ModeText :=
  if mode.has sslModeTlsOutgoingForce && mode.has sslModeTlsListenForce then
    text.addStr (lit "tls_all_force")
  else do
    let text ← text.addIf (mode.has sslModeTlsOutgoingForce) (lit "tls_outgoing_force")
    text.addIf (mode.has sslModeTlsListenForce) (lit "tls_listen_force")

/-- The part of `log_options_ssl_str` that fills `ssl_mode`. -/
def logOptionsSslMode (garbage : Nat → Byte) (mode : Flag) : Option (List Byte) := do
  let array := malloc garbage sslModeSize
  let text ←
    if mode = sslModeEmpty then (store array 0 0).map fun block => ⟨block, none⟩
    else if mode = sslModeNone then
      (storeAll array 0 ((lit "none").content ++ [0])).map fun block => ⟨block, none⟩
    else ModeText.modes mode ⟨array, some 0⟩
  let text ← text.forced mode
  return text.block

end Perdition.Settings
