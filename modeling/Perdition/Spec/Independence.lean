import Perdition.Lib.Observed
import Perdition.World

/-!
# What an attempt uses towards a real server

The rounds of the authentication loop that a run can come to, after whatever attempts failed before,
and what such a round uses for the real server: the user name it is chosen by, the server and the
port that are connected to, and the credentials that `out_authenticate` is given.
-/
namespace Perdition

open Lib

/-- A round of the loop may begin with these locals in this world: it is the first one, or the
rounds before it did not leave the loop. -/
inductive Begun (config : Config) : LoopState → World → Prop where
  /-- The first round. -/
  | first (w : World) : Begun config (LoopState.start config) w
  /-- The round after another. -/
  | again {st st' : LoopState} {w w' : World} {fuel : Nat} (before : Begun config st w)
    (round : Session.run (attempt config st) fuel w = .done (.inl st') w') : Begun config st' w'

/-- What is used towards a real server. -/
inductive Use where
  /-- The server is chosen, with the user name that is there then. -/
  | chosen (auth : Auth)
  /-- This server is connected to at this port. -/
  | dialled (server port : CString)
  /-- `out_authenticate` is called with these credentials. -/
  | sent (auth : Auth)
  deriving DecidableEq

/-- What an operation uses. -/
def SessionOp.use : SessionOp → Option Use
  | .note (.located auth) => some (.chosen auth)
  | .clientOpen server port => some (.dialled server port)
  | .note (.outAuthenticate auth) => some (.sent auth)
  | _ => none

/-- The operations of a round of the loop. -/
def roundOps (config : Config) (fuel : Nat) (st : LoopState) (w : World) : List SessionOp :=
  operations World.step fuel (attempt config st) w

/-- What a round uses, in its order. -/
def roundUses (config : Config) (fuel : Nat) (st : LoopState) (w : World) : List Use :=
  (roundOps config fuel st w).filterMap SessionOp.use

/-- `in_get_auth` returns in the round and leaves these credentials in `auth`. -/
def Got (auth : Auth) (ops : List SessionOp) : Prop :=
  ∃ status, .note (.gotAuth status auth) ∈ ops

/-- The round makes the test for disabled logins and passes it. -/
def Accepted (ops : List SessionOp) : Prop :=
  (∃ tlsState, .note (.loginDisabledTest tlsState) ∈ ops) ∧ .note .loginDisabled ∉ ops

end Perdition
