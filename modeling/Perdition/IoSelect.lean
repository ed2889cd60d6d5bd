import Mathlib.Data.Finset.Card
import Perdition.Io

/-!
# Waiting for descriptors

`io_select` and `__io_select` of `io_select.c`. What `time` and `select` return is given for each
round of the loop; what `io_select_get` and `SSL_pending` find does not change meanwhile.
-/
namespace Perdition

/-! ## Sets and timeouts -/

/-- The three arguments of `select` that are pointers to an `fd_set`. -/
structure FdSets where
  /-- `readfds`. -/
  readfds : Option (Finset Nat)
  /-- `writefds`. -/
  writefds : Option (Finset Nat)
  /-- `exceptfds`. -/
  exceptfds : Option (Finset Nat)
  deriving DecidableEq

/-- The number of bits that are set. -/
def FdSets.bits (sets : FdSets) : Nat :=
  (sets.readfds.getD ∅).card + (sets.writefds.getD ∅).card + (sets.exceptfds.getD ∅).card

/-- `struct timeval`. -/
structure Timeval where
  /-- `tv_sec`. -/
  tvSec : Int
  /-- `tv_usec`. -/
  tvUsec : Int
  deriving DecidableEq

/-- The microseconds in a timeout. -/
def Timeval.total (t : Timeval) : Int := t.tvSec * 1000000 + t.tvUsec

/-- The timeout that `select` is given. -/
inductive Timeout where
  /-- A null pointer: the wait is unbounded. -/
  | unbounded
  /-- A structure that nothing was assigned to. -/
  | uninitialised
  /-- This time. -/
  | after (t : Timeval)
  deriving DecidableEq

/-- What `select` returns and leaves in its arguments that are not null. -/
structure SelectAnswer where
  /-- The number of descriptors, or -1. -/
  status : Int
  /-- `readfds`. -/
  readfds : Finset Nat
  /-- `writefds`. -/
  writefds : Finset Nat
  /-- `exceptfds`. -/
  exceptfds : Finset Nat
  /-- The time that is left. -/
  left : Timeval

/-- The sets that `select` leaves. -/
def FdSets.answered (sets : FdSets) (answer : SelectAnswer) : FdSets where
  readfds := sets.readfds.map fun _ => answer.readfds
  writefds := sets.writefds.map fun _ => answer.writefds
  exceptfds := sets.exceptfds.map fun _ => answer.exceptfds

/-- The timeout that `select` leaves. -/
def Timeout.answered (answer : SelectAnswer) : Timeout → Timeout
  | .after _ => .after answer.left
  | other => other

/-! ## `__io_select` -/

/-- What is read of an `io_t`. -/
structure SelectIo where
  /-- `io_get_type`. -/
  type : IoType
  /-- `SSL_pending` of `io_get_ssl`, unless that is null. -/
  ssl : Option Nat

/-- What `io_select` is called with, and what it only reads. -/
structure SelectCall where
  /-- `n`. -/
  n : Nat
  /-- `readfds`, `writefds` and `exceptfds`. -/
  sets : FdSets
  /-- `io_select_get`. -/
  get : Nat → Option SelectIo
  /-- `s->log` is not null. -/
  log : Bool
  /-- `opt.connect_relog`. -/
  connectRelog : Int

/-- What `__io_select` returns and leaves. -/
structure Selection where
  /-- The value that is returned. -/
  status : Int
  /-- The sets. -/
  sets : FdSets
  /-- The timeout. -/
  timeout : Timeout
  deriving DecidableEq

section

variable (call : SelectCall)

/-- `__io_select_get_ssl`. -/
def ioSelectGetSsl (fd : Nat) : Option Nat :=
  match call.get fd with
  | none => none
  | some io => if io.type ≠ .ssl then none else io.ssl

/-- The first pass over the descriptors below `n`: `want_readfds` and `pending`. -/
def wantReadfds (readfds : Finset Nat) : Finset Nat × Nat :=
  (List.range call.n).foldl (fun (want, pending) i =>
    if i ∉ readfds then (want, pending)
    else match ioSelectGetSsl call i with
      | none => (want, pending)
      | some bytes => if bytes ≠ 0 then (insert i want, pending + 1) else (want, pending))
    (∅, 0)

/-- The second pass: `readfds` and `selected`. -/
def addWanted (want readfds : Finset Nat) (selected : Int) : Finset Nat × Int :=
  (List.range call.n).foldl (fun (readfds, selected) i =>
    if i ∈ want ∧ i ∉ readfds then (insert i readfds, selected + 1) else (readfds, selected))
    (readfds, selected)

/-- The first pass, unless `readfds` is null. -/
def firstPass (sets : FdSets) : Finset Nat × Nat :=
  match sets.readfds with
  | none => (∅, 0)
  | some readfds => wantReadfds call readfds

/-- The timeout that `select` is given: `pending?&zero_timeout:timeout`. -/
def givenTimeout (sets : FdSets) (timeout : Timeout) : Timeout :=
  if (firstPass call sets).2 ≠ 0 then .after ⟨0, 0⟩ else timeout

/-- `__io_select`. -/
def ioSelectOnce (select : FdSets → Timeout → SelectAnswer) (sets : FdSets) (timeout : Timeout) :
    Selection :=
  let (want, pending) := firstPass call sets
  let answer := select sets (givenTimeout call sets timeout)
  let left := if pending ≠ 0 then timeout else timeout.answered answer
  if answer.status < 0 ∨ pending = 0 then ⟨answer.status, sets.answered answer, left⟩
  else
    let (readfds, selected) := addWanted call want answer.readfds answer.status
    ⟨selected, { sets.answered answer with readfds := sets.readfds.map fun _ => readfds }, left⟩

/-! ## `io_select` -/

/-- The variables of the loop, and what it changes outside them. -/
structure SelectVars where
  /-- `*timeout`, unless `timeout` is null. -/
  timeout : Option Timeval
  /-- `internal_timeout`. -/
  internalTimeout : Timeout
  /-- `s->log->log_time`. -/
  logTime : Int
  /-- The sets that the arguments point to. -/
  sets : FdSets
  deriving DecidableEq

/-- What the calls in a round return. -/
structure SelectRound where
  /-- `time`. -/
  now : Int
  /-- `select`, called with `n`. -/
  select : FdSets → Timeout → SelectAnswer

/-- `relog` is not zero. -/
def relogs (logTime : Int) : Bool := call.log && call.connectRelog ≠ 0 && logTime ≠ 0

/-- `internal_timeout.tv_sec`, where the timeout is not null. -/
def Timeout.tvSec : Timeout → Int
  | .after t => t.tvSec
  | _ => 0

/-- A round up to `__io_select`. -/
def prepareRound (relog : Bool) (now : Int) (v : SelectVars) : SelectVars :=
  let internalTimeout := match v.timeout with
    | some t => .after t
    | none => v.internalTimeout
  let logTime := if relog && now ≥ v.logTime then now + call.connectRelog else v.logTime
  let (internalTimeout, timeout) :=
    if relog && (v.timeout.isNone || internalTimeout.tvSec > logTime - now) then
      (.after ⟨logTime - now, 0⟩,
        v.timeout.map fun t => { t with tvSec := t.tvSec - (logTime - now) })
    else (internalTimeout, v.timeout.map fun _ => ⟨0, 0⟩)
  ⟨timeout, internalTimeout, logTime, call.sets⟩

/-- `__io_select` in a round. -/
def selectRound (relog : Bool) (round : SelectRound) (v : SelectVars) : Selection :=
  let v := prepareRound call relog round.now v
  ioSelectOnce call round.select v.sets v.internalTimeout

/-- The variables after a round. -/
def afterRound (relog : Bool) (round : SelectRound) (v : SelectVars) : SelectVars :=
  let selection := selectRound call relog round v
  { prepareRound call relog round.now v with
    internalTimeout := selection.timeout
    sets := selection.sets }

/-- The loop is left after a round. -/
def leavesLoop (relog : Bool) (round : SelectRound) (v : SelectVars) : Bool :=
  (selectRound call relog round v).status ≠ 0 ||
    (afterRound call relog round v).timeout = some ⟨0, 0⟩

/-- The variables after rounds that do not leave the loop. -/
def goOn (relog : Bool) : List SelectRound → SelectVars → Option SelectVars
  | [], v => some v
  | round :: rounds, v =>
    if leavesLoop call relog round v then none else goOn relog rounds (afterRound call relog round v)

/-- `*timeout` when `io_select` returns with these variables. -/
def finalTimeout (v : SelectVars) : Option Timeval :=
  match v.timeout, v.internalTimeout with
  | some t, .after internal => some ⟨t.tvSec + internal.tvSec, t.tvUsec + internal.tvUsec⟩
  | timeout, _ => timeout

/-- What `io_select` returns and leaves. -/
structure SelectReturn where
  /-- The value that is returned. -/
  status : Int
  /-- `*timeout`, unless `timeout` is null. -/
  timeout : Option Timeval
  /-- The sets. -/
  sets : FdSets
  /-- `s->log->log_time`. -/
  logTime : Int
  deriving DecidableEq

/-- The variables before the first round. -/
def ioSelectStart (timeout : Option Timeval) (logTime : Int) : SelectVars :=
  ⟨timeout, .uninitialised, logTime, call.sets⟩

/-- `io_select`, where it makes these rounds and returns in the one after them. -/
def ioSelect (timeout : Option Timeval) (logTime : Int) (rounds : List SelectRound)
    (last : SelectRound) : Option SelectReturn := do
  let relog := relogs call logTime
  let v ← goOn call relog rounds (ioSelectStart call timeout logTime)
  if leavesLoop call relog last v then
    let after := afterRound call relog last v
    some ⟨(selectRound call relog last v).status, finalTimeout after, after.sets, after.logTime⟩
  else none

end

end Perdition
