import Perdition.Bytes
import Perdition.Lib.Program

/-!
# The operations of one connection

A dialogue is a program over the operations on one `io_t`. The static `token_read_buffer` is shared
by every connection, so it belongs to the handler: `nextByte` is `token_fill_buffer` together with
the byte taken at `token_read_offset`.
-/
namespace Perdition

open Lib

/-- `MAX_LINE_LENGTH`. -/
def maxLineLength : Nat := 4096

/-- `flag_t`. -/
abbrev Flag := UInt32

/-- A bit of a flag word is set. -/
def Flag.has (flags bit : Flag) : Bool := flags &&& bit != 0

/-- `io_get_type`. -/
inductive IoType where
  /-- A plain pair of file descriptors. -/
  | fd
  /-- An SSL or TLS connection. -/
  | ssl
  deriving DecidableEq, Repr

/-- Places where the code reads or writes outside an object, after which nothing is known. -/
inductive Fault where
  /-- `token_to_string` strips two characters from one. -/
  | tokenToString
  /-- `queue_to_string` ends the string of an empty queue. -/
  | queueToString
  /-- `__imap4_write_fmt` writes past `__imap4_write_fmt_str`. -/
  | imap4WriteFmt
  /-- `__str_vwrite` or its caller passes the end of `__str_write_buf`. -/
  | strVwrite
  /-- `str_append_substring_if_missing` or `str_delete_substring` looks before its string. -/
  | substring
  /-- A null string or token is read. -/
  | nullPointer
  /-- A captured server response that fills its buffer is read as a string. -/
  | capture
  deriving DecidableEq, Repr

/-- Operations on one connection. -/
inductive IoOp where
  /-- `token_fill_buffer` and, where it returned bytes, the next byte of the buffer. -/
  | nextByte
  /-- `io_write` of all of these bytes. -/
  | write (content : List Byte)
  /-- `io_get_type`. -/
  | getType
  /-- Bytes that an earlier message left at the end of `__str_write_buf`. -/
  | stale (count : Nat)
  /-- Memory outside an object is used. -/
  | fault (why : Fault)
  deriving DecidableEq

/-- Operations on one connection and their results: a byte unless the read failed or ended, and
whether all bytes were written. -/
def IoSig : Signature where
  Op := IoOp
  Res
    | .nextByte => Option Byte
    | .write _ => Bool
    | .getType => IoType
    | .stale _ => List Byte
    | .fault _ => Empty

/-- A program that talks to one connection. -/
abbrev Dialogue := Program IoSig

/-- The two ends the program talks to. -/
inductive Party where
  /-- The client. -/
  | client
  /-- The real server. -/
  | server
  deriving DecidableEq, Repr

/-- Operations on the connections of both parties. -/
def DuoSig : Signature where
  Op := Party × IoOp
  Res op := IoSig.Res op.2

/-- A program that talks to the client and to the real server. -/
abbrev Exchange := Program DuoSig

/-- Hold a dialogue with one of the parties. -/
def Dialogue.with {α : Type} (party : Party) (dialogue : Dialogue α) : Exchange α :=
  dialogue.interpret fun op => .perform (S := DuoSig) (party, op)

/-- The next byte read from the connection. -/
def nextByte : Dialogue (Option Byte) := .perform (S := IoSig) IoOp.nextByte

/-- Write bytes, all of them or not successfully. -/
def ioWrite (content : List Byte) : Dialogue Bool := .perform (S := IoSig) (IoOp.write content)

/-- The type of the connection. -/
def ioGetType : Dialogue IoType := .perform (S := IoSig) IoOp.getType

/-- Old bytes of the write buffer. -/
def staleBytes (count : Nat) : Dialogue (List Byte) := .perform (S := IoSig) (IoOp.stale count)

/-- Use memory outside an object. -/
def fault {α : Type} (why : Fault) : Dialogue α :=
  (.perform (S := IoSig) (IoOp.fault why) : Dialogue Empty) >>= fun never => nomatch never

/-- Use memory outside an object while talking to both parties. -/
def Exchange.fault {α : Type} (why : Fault) : Exchange α :=
  (Perdition.fault why : Dialogue α).with .server

end Perdition
