import Perdition.Session

/-!
# The world a session runs in

A handler for the operations of a session. What the peers do is given in advance: the chunks that
`io_read` returns, the results of writes, handshakes, connection attempts and PAM, and the map at
each lookup. What the program does is recorded as a list of events. The shared `token_read_buffer` is
part of the world, with the connection its bytes were read from.
-/
namespace Perdition

open Lib

/-! ## Connections -/

/-- A connection at a stage of its life: the count of handshakes tells the layers apart. -/
structure IoId where
  /-- The peer. -/
  party : Party
  /-- The connection with that peer, in the order they were made. -/
  serial : Nat
  /-- Handshakes made on the connection. -/
  layer : Nat
  deriving DecidableEq, Repr

/-- The connection after one more handshake. -/
def IoId.secured (id : IoId) : IoId := { id with layer := id.layer + 1 }

/-- A connection and what its peer will do. An empty chunk is a failed read or the end. -/
structure Connection where
  /-- The connection. -/
  id : IoId
  /-- `io_get_type`. -/
  type : IoType
  /-- What reads return. -/
  reads : List (List Byte)
  /-- Whether writes succeed; where nothing is said they do. -/
  writes : List Bool
  /-- What handshakes give: failure, or what reads return after it. -/
  handshakes : List (Option (List (List Byte)))
  deriving DecidableEq

/-- The most bytes one `io_read` of `token_fill_buffer` returns. -/
def maxChunk : Nat := maxLineLength - 1

/-- `io_read`: the bytes read, none for a failure or the end. -/
def Connection.read (conn : Connection) : List Byte × Connection :=
  match conn.reads with
  | [] => ([], conn)
  | chunk :: rest =>
    if chunk.length ≤ maxChunk then (chunk, { conn with reads := rest })
    else (chunk.take maxChunk, { conn with reads := chunk.drop maxChunk :: rest })

/-- `io_write`: all bytes were written. -/
def Connection.write (conn : Connection) : Bool × Connection :=
  match conn.writes with
  | [] => (true, conn)
  | ok :: rest => (ok, { conn with writes := rest })

/-- A handshake, and the connection after it. -/
def Connection.upgrade (conn : Connection) : Option Connection :=
  match conn.handshakes with
  | some reads :: rest => some { conn with
      id := conn.id.secured
      type := .ssl
      reads := reads
      handshakes := rest }
  | _ => none

/-! ## One connection and the read buffer -/

/-- A connection with the read buffer and the write buffer. -/
structure Channel where
  /-- The connection. -/
  conn : Connection
  /-- The bytes of `token_read_buffer` from `token_read_offset` on. -/
  unread : List Byte
  /-- The connection they were read from. -/
  source : IoId
  /-- Bytes at the end of `__str_write_buf`. -/
  stale : List Byte
  deriving DecidableEq

namespace Channel

/-- `token_fill_buffer` and the next byte. -/
def nextByte (ch : Channel) : Option Byte × Channel :=
  match ch.unread with
  | b :: rest => (some b, { ch with unread := rest })
  | [] => match ch.conn.read with
    | ([], conn) => (none, { ch with conn := conn })
    | (b :: rest, conn) =>
      (some b, { ch with conn := conn, unread := rest, source := conn.id })

/-- Carry out an operation. -/
def step : Handler IoSig Channel Fault
  | .nextByte, ch => .done ch.nextByte.1 ch.nextByte.2
  | .write _, ch => .done ch.conn.write.1 { ch with conn := ch.conn.write.2 }
  | .getType, ch => .done ch.conn.type ch
  | .stale count, ch => .done (ch.stale.take count) ch
  | .fault why, ch => .halted why ch

end Channel

/-! ## Events -/

/-- What a run shows. -/
inductive Event where
  /-- A byte was taken for one connection that had been read from another, or from the same. -/
  | took (reader source : IoId) (b : Byte)
  /-- A read failed or found the end. -/
  | starved (reader : IoId)
  /-- Bytes were written, all of them or not. -/
  | wrote (io : IoId) (content : List Byte) (ok : Bool)
  /-- `token_flush`. -/
  | flushed
  /-- A handshake succeeded on this connection, with these bytes unread. -/
  | upgraded (io : IoId) (unread : List Byte)
  /-- A handshake failed on this connection. -/
  | upgradeFailed (io : IoId)
  /-- A connection to the real server was made. -/
  | opened (io : IoId)
  /-- A connection to the real server could not be made. -/
  | openFailed
  /-- A connection to the real server was closed. -/
  | closed (io : IoId)
  /-- PAM was started. -/
  | pamStarted (user : Option CString) (ok : Bool)
  /-- PAM authenticated a user, or did not. -/
  | pamAuthenticated (user passwd : Option CString) (ok : Bool)
  /-- A place in the loop was passed with these bytes unread. -/
  | noted (what : Note) (unread : List Byte)
  deriving DecidableEq

/-- The events of an operation on a connection. -/
def ioEvents (reader source : IoId) : (op : IoOp) → IoSig.Res op → List Event
  | .nextByte, some b => [.took reader source b]
  | .nextByte, none => [.starved reader]
  | .write content, ok => [.wrote reader content ok]
  | .getType, _ => []
  | .stale _, _ => []
  | .fault _, _ => []

/-! ## The world -/

/-- What a server will do once connected. -/
structure ServerScript where
  /-- What reads return. -/
  reads : List (List Byte)
  /-- Whether writes succeed. -/
  writes : List Bool
  /-- What handshakes give. -/
  handshakes : List (Option (List (List Byte)))
  deriving DecidableEq

/-- The state of a session and its peers. -/
structure World where
  /-- `client_io`. -/
  client : Connection
  /-- `server_io`. -/
  server : Option Connection
  /-- What attempts to connect give. -/
  servers : List (Option ServerScript)
  /-- Connections to real servers made. -/
  opened : Nat
  /-- The bytes of `token_read_buffer` from `token_read_offset` on. -/
  unread : List Byte
  /-- The connection they were read from. -/
  source : IoId
  /-- Bytes at the end of `__str_write_buf`. -/
  stale : List Byte
  /-- The map at each lookup. -/
  map : Nat → Option (CString → MapResult)
  /-- Lookups made. -/
  lookups : Nat
  /-- What calls to PAM give; where nothing is said they fail. -/
  pam : List Bool
  /-- What happened so far. -/
  trace : List Event

/-- Why a run ended before it returned. -/
inductive Stop where
  /-- `perdition_exit_cleanly`. -/
  | exit (status : Int)
  /-- Memory outside an object was used. -/
  | fault (why : Fault)
  /-- `server_io` is null. -/
  | noServer
  deriving DecidableEq, Repr

namespace World

/-- Record events. -/
def record (w : World) (events : List Event) : World := { w with trace := w.trace ++ events }

/-- A party's connection with the buffers. -/
def channel (w : World) : Party → Option Channel
  | .client => some ⟨w.client, w.unread, w.source, w.stale⟩
  | .server => w.server.map fun conn => ⟨conn, w.unread, w.source, w.stale⟩

/-- Put a party's connection and the buffers back. -/
def putChannel (w : World) (party : Party) (ch : Channel) : World :=
  match party with
  | .client => { w with client := ch.conn, unread := ch.unread, source := ch.source }
  | .server => { w with server := some ch.conn, unread := ch.unread, source := ch.source }

/-- An operation on a party's connection. -/
def io (party : Party) (op : IoOp) (w : World) : Outcome World Stop (IoSig.Res op) :=
  match w.channel party with
  | none => .halted .noServer w
  | some ch => match ch.step op with
    | .done r ch' => .done r ((w.putChannel party ch').record (ioEvents ch.conn.id ch'.source op r))
    | .halted why _ => .halted (.fault why) w
    | .looping _ => .looping w

/-- `perdition_ssl_server_connection` on `client_io`. -/
def sslServerConnection (w : World) : Bool × World :=
  match w.client.upgrade with
  | none => (false, w.record [.upgradeFailed w.client.id])
  | some conn => (true, { w with client := conn }.record [.upgraded w.client.id w.unread])

/-- `perdition_ssl_client_connection` on `server_io`. -/
def sslClientConnection (w : World) : Outcome World Stop Bool :=
  match w.server with
  | none => .halted .noServer w
  | some old => match old.upgrade with
    | none => .done false (w.record [.upgradeFailed old.id])
    | some conn => .done true ({ w with server := some conn }.record [.upgraded old.id w.unread])

/-- The next connection to a real server. -/
def serverConnection (w : World) (script : ServerScript) : Connection :=
  ⟨⟨.server, w.opened, 0⟩, .fd, script.reads, script.writes, script.handshakes⟩

/-- `vanessa_socket_client_src_open` and `io_create_fd`. -/
def clientOpen (w : World) : Bool × World :=
  match w.servers with
  | some script :: rest =>
    let conn := w.serverConnection script
    (true, { w with
      server := some conn, servers := rest, opened := w.opened + 1 }.record [.opened conn.id])
  | none :: rest => (false, { w with servers := rest }.record [.openFailed])
  | [] => (false, w.record [.openFailed])

/-- `io_close` and `io_destroy` of `server_io`. -/
def closeServer (w : World) : World :=
  match w.server with
  | none => w
  | some conn => { w with server := none }.record [.closed conn.id]

/-- The next result of PAM. -/
def nextPam (w : World) : Bool × World :=
  match w.pam with
  | [] => (false, w)
  | ok :: rest => (ok, { w with pam := rest })

/-- Carry out an operation of the session. -/
def step : Handler SessionSig World Stop
  | .io party op, w => w.io party op
  | .tokenFlush, w => .done () ({ w with unread := [] }.record [.flushed])
  | .sslServerConnection, w => .done w.sslServerConnection.1 w.sslServerConnection.2
  | .sslClientConnection, w => w.sslClientConnection
  | .clientOpen _ _, w => .done w.clientOpen.1 w.clientOpen.2
  | .closeServer, w => .done () w.closeServer
  | .map, w => .done (w.map w.lookups) { w with lookups := w.lookups + 1 }
  | .pamStart user, w => .done w.nextPam.1 (w.nextPam.2.record [.pamStarted user w.nextPam.1])
  | .pamAuthenticate user passwd, w =>
    .done w.nextPam.1 (w.nextPam.2.record [.pamAuthenticated user passwd w.nextPam.1])
  | .exit status, w => .halted (.exit status) w
  | .note what, w => .done () (w.record [.noted what w.unread])

end World

/-- A world in which nothing has happened yet: the client is connected on a plain connection. -/
structure World.Fresh (w : World) : Prop where
  /-- The client is the first one, with no handshake made. -/
  client : w.client.id = ⟨.client, 0, 0⟩
  /-- Its connection is plain. -/
  type : w.client.type = .fd
  /-- No real server is connected. -/
  server : w.server = none
  /-- None has been. -/
  opened : w.opened = 0
  /-- The read buffer is empty. -/
  unread : w.unread = []
  /-- Nothing is recorded. -/
  trace : w.trace = []

/-- A client that sends these chunks, and what happens after each handshake with it; real servers that
can be connected. All writes succeed. -/
def World.accepted (reads : List (List Byte)) (handshakes : List (Option (List (List Byte))))
    (servers : List (Option ServerScript)) : World where
  client := ⟨⟨.client, 0, 0⟩, .fd, reads, [], handshakes⟩
  server := none
  servers := servers
  opened := 0
  unread := []
  source := ⟨.client, 0, 0⟩
  stale := []
  map _ := none
  lookups := 0
  pam := []
  trace := []

theorem World.accepted_fresh (reads : List (List Byte))
    (handshakes : List (Option (List (List Byte)))) (servers : List (Option ServerScript)) :
    (World.accepted reads handshakes servers).Fresh :=
  ⟨rfl, rfl, rfl, rfl, rfl, rfl⟩

/-- A run of the session. -/
def Session.run {α : Type} (session : Session α) (fuel : Nat) (w : World) :
    Outcome World Stop α :=
  Program.run World.step fuel session w

/-- What happens in a run of `main`. -/
def mainTrace (config : Config) (fuel : Nat) (w : World) : List Event :=
  (Session.run (main config) fuel w).state.trace

/-- A dialogue with the client runs on the connection of the client. -/
theorem Session.run_client {α : Type} (dialogue : Dialogue α) (fuel : Nat) (w : World) :
    Program.run World.step fuel (Session.client dialogue) w =
      Program.run (fun op w => w.io .client op) fuel dialogue w :=
  Program.run_interpret _ _ _ _ _

/-- An exchange runs on the connections of both parties. -/
theorem Session.run_exchange {α : Type} (exchange : Exchange α) (fuel : Nat) (w : World) :
    Program.run World.step fuel (Session.exchange exchange) w =
      Program.run (fun op w => w.io op.1 op.2) fuel exchange w :=
  Program.run_interpret _ _ _ _ _

end Perdition
