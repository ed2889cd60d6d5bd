import Perdition.CommandLine
import Perdition.Memory
import Perdition.Session

/-!
# The default server

The part of `main` that takes the next server of `outgoing_server`, with what its arithmetic may run
into. A list without servers is not a null pointer.
-/
namespace Perdition

/-- An operation on integers without a defined result. -/
inductive Arithmetic where
  /-- `rnd + 1` is no `int`. -/
  | overflow
  /-- The list has no servers to divide by. -/
  | divisionByZero
  deriving DecidableEq

/-- The default server is taken: there is no server, or the last one was a default. -/
def fallsBack (servers : Option (List UserServerPort)) (st : LoopState) : Bool :=
  (unset st.servername || st.roundRobinServer) && servers.isSome

/-- The default server with this index is taken. -/
def LoopState.takeDefault (st : LoopState) (servers : List UserServerPort) (rnd : Nat) :
    LoopState :=
  let usp := servers[rnd]?
  { st with
    roundRobinServer := true
    rnd := rnd
    usp := usp
    servername := usp.bind (·.server)
    port := usp.bind (·.port) }

/-- The default server, where there is none or the last one was a default. -/
def defaultServer (servers : Option (List UserServerPort)) (st : LoopState) :
    Except Arithmetic LoopState :=
  if fallsBack servers st then
    let servers := servers.getD []
    if intMax ≤ st.rnd then .error .overflow
    else if servers.length = 0 then .error .divisionByZero
    else .ok (st.takeDefault servers ((st.rnd + 1) % servers.length))
  else .ok st

/-- Attempts one after another, in each of which the map returns an entry or none, and the indexes
of the default servers that are taken. -/
def attemptServers (config : Config) (servers : Option (List UserServerPort)) :
    LoopState → List (Option UserServerPort) → Except Arithmetic (LoopState × List Nat)
  | st, [] => .ok (st, [])
  | st, found :: rest => do
    let st := useEntry config { st with usp := found }
    let chosen ← defaultServer servers st
    let later ← attemptServers config servers chosen.cleanedUp rest
    return (later.1, if fallsBack servers st then chosen.rnd :: later.2 else later.2)

end Perdition
