import Perdition.Bytes

/-!
# Requests to the map daemon

`perdition_un_send_recv` of `db/daemon/lib/unix_socket.c`. What `sendto` returns is given for each of
its calls, and what `select` and `recvfrom` return for each pass of the second loop. It does not
matter for either how long `sleep` takes.
-/
namespace Perdition

/-- The values of `errno` that are told apart. -/
inductive UnErrno where
  /-- `EINTR`. -/
  | eintr
  /-- `ENOENT`. -/
  | enoent
  /-- `ECONNREFUSED`. -/
  | econnrefused
  /-- Any other. -/
  | other
  deriving DecidableEq, Repr

/-- What `sendto` returns. -/
structure Sendto where
  /-- The number of bytes, or -1. -/
  bytes : Int
  /-- `errno` after the call. -/
  errno : UnErrno

/-- What `recvfrom` returns. -/
inductive Recvfrom where
  /-- -1, with this `errno`. -/
  | failed (errno : UnErrno)
  /-- A datagram, and the `sun_path` of its sender. -/
  | datagram (sunPath : CString) (bytes : List Byte)

/-- What `select` returns, and `recvfrom` where it is called. -/
inductive UnWait where
  /-- -1, with this `errno`. -/
  | failed (errno : UnErrno)
  /-- 0: nothing was received in time. -/
  | timeout
  /-- The socket can be read. -/
  | ready (received : Recvfrom)

/-- What `perdition_un_send_recv` is called with. -/
structure UnRequest where
  /-- `peer->name`. -/
  peerName : CString
  /-- The bytes at `msg`. -/
  msg : List Byte
  /-- `send_len`. -/
  sendLen : Nat
  /-- `recv_len`. -/
  recvLen : Nat
  /-- `timeout`. -/
  timeout : Int
  /-- `retry`. -/
  retry : Int

/-- Where the function is. -/
inductive UnPhase where
  /-- In the first loop. -/
  | sending
  /-- In the second loop. -/
  | receiving
  /-- It has returned this. -/
  | returned (bytes : Int)
  deriving DecidableEq

/-- The variables, and what was done so far. -/
structure UnVars where
  /-- Where the function is. -/
  phase : UnPhase
  /-- `attempt`. -/
  attempt : Int
  /-- `pause`. -/
  pause : Int
  /-- The bytes at `msg`. -/
  msg : List Byte
  /-- The number of calls of `sendto`. -/
  sendCalls : Nat
  /-- The number of passes of the second loop. -/
  waitCalls : Nat
  /-- What was transmitted. -/
  transmitted : List (List Byte)
  deriving DecidableEq

/-- `recvfrom` puts a datagram, as far as it fits, over the bytes at `msg`. -/
def recvInto (recvLen : Nat) (datagram msg : List Byte) : List Byte :=
  datagram.take recvLen ++ msg.drop (datagram.take recvLen).length

section

variable (request : UnRequest) (sends : Nat → Sendto) (waits : Nat → UnWait)

/-- A pass of the first loop. -/
def sendPass (sent : Sendto) (v : UnVars) : UnVars :=
  let called := { v with sendCalls := v.sendCalls + 1 }
  if sent.bytes < 0 ∨ sent.bytes ≠ request.sendLen then
    if sent.errno = .eintr then { called with attempt := v.attempt - 1 + 1 }
    else if sent.errno = .enoent ∨ sent.errno = .econnrefused then
      { called with
        pause := if v.attempt < request.retry - 1 then v.pause * 2 else v.pause
        attempt := v.attempt + 1 }
    else { called with phase := .returned (-1) }
  else
    { called with
      transmitted := v.transmitted ++ [v.msg.take request.sendLen]
      phase := .receiving
      pause := request.timeout }

/-- A pass of the second loop. -/
def waitPass (wait : UnWait) (v : UnVars) : UnVars :=
  let called := { v with waitCalls := v.waitCalls + 1 }
  match wait with
  | .failed errno => if errno = .eintr then called else { called with phase := .returned (-1) }
  | .timeout => { called with phase := .sending, pause := request.timeout }
  | .ready (.failed errno) =>
    if errno = .eintr then called else { called with phase := .returned (-1) }
  | .ready (.datagram sunPath bytes) =>
    let called := { called with msg := recvInto request.recvLen bytes v.msg }
    if sunPath ≠ request.peerName then called
    else { called with phase := .returned (bytes.take request.recvLen).length }

/-- A pass of the loop that the function is in. -/
def unPass (v : UnVars) : UnVars :=
  match v.phase with
  | .sending =>
    if v.attempt < request.retry then sendPass request (sends v.sendCalls) v
    else { v with phase := .returned (-1) }
  | .receiving => waitPass request (waits v.waitCalls) v
  | .returned _ => v

/-- `perdition_un_send_recv`, so many passes after it was called. -/
def perditionUnSendRecv : Nat → UnVars
  | 0 => ⟨.sending, 0, request.timeout, request.msg, 0, 0, []⟩
  | n + 1 => unPass request sends waits (perditionUnSendRecv n)

end

end Perdition
