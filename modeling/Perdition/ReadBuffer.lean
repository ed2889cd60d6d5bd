import Perdition.Queue
import Perdition.World

/-!
# The buffer of the tokeniser

The static variables of `token.c` and how `token_fill_buffer` fills them: a handler for reading that
keeps the buffer, the offset and the count of bytes as the code does, where a `Channel` keeps only
the bytes that are left.
-/
namespace Perdition

open Lib

/-- `token_read_buffer`, `token_read_offset` and `token_read_bytes`. -/
structure TokenBuffer where
  /-- `token_read_buffer`. -/
  buffer : List Byte
  /-- `token_read_offset`. -/
  offset : Nat
  /-- `token_read_bytes`. -/
  count : Nat
  /-- The size of the buffer. -/
  size : buffer.length = maxLineLength
  /-- No byte that was not read is taken. -/
  inside : offset ≤ count
  /-- A read never fills the buffer. -/
  filled : count ≤ maxChunk

namespace TokenBuffer

/-- Of no bytes none is taken. -/
theorem none_inside : 0 ≤ 0 := Nat.le_refl 0

/-- A read may find none. -/
theorem none_filled : 0 ≤ maxChunk := Nat.zero_le maxChunk

/-- The variables before the first read. -/
def zero : TokenBuffer :=
  ⟨List.replicate maxLineLength 0, 0, 0, List.length_replicate, none_inside, none_filled⟩

/-- The bytes that were read and not taken. -/
def left (statics : TokenBuffer) : List Byte :=
  (statics.buffer.take statics.count).drop statics.offset

end TokenBuffer

/-- What one `io_read` of `token_fill_buffer` returns: some bytes, and no more than it asks for. -/
structure Chunk where
  /-- The bytes. -/
  content : List Byte
  /-- A read that returns none has found the end. -/
  filled : content ≠ []
  /-- It asks for one byte less than the buffer holds. -/
  fits : content.length ≤ maxChunk

/-- The bytes of chunks. -/
def chunkBytes (chunks : List Chunk) : List Byte := (chunks.map Chunk.content).flatten

/-- The buffer, and the chunks that are still to be read before the end. -/
structure Reader where
  /-- What `io_read` will return. -/
  chunks : List Chunk
  /-- The static variables. -/
  statics : TokenBuffer

namespace Reader

/-- The bytes that are not taken, read or not. -/
def unread (reader : Reader) : List Byte := reader.statics.left ++ chunkBytes reader.chunks

/-- `__token_fill_buffer`: the count of bytes read. -/
def refill (reader : Reader) : Nat × Reader :=
  match reader.chunks with
  | [] => (0, { reader with statics := { reader.statics with
      offset := 0
      count := 0
      inside := TokenBuffer.none_inside
      filled := TokenBuffer.none_filled } })
  | chunk :: rest => (chunk.content.length, ⟨rest, {
      buffer := chunk.content ++ reader.statics.buffer.drop chunk.content.length
      offset := 0
      count := chunk.content.length
      size := by
        have limit : maxChunk ≤ maxLineLength := by decide
        have fits := chunk.fits
        rw [List.length_append, List.length_drop, reader.statics.size]
        omega
      inside := Nat.zero_le _
      filled := chunk.fits }⟩)

/-- `token_fill_buffer`: a positive number where a byte is left to be taken. -/
def fill (reader : Reader) : Nat × Reader :=
  if reader.statics.offset < reader.statics.count then (reader.statics.count, reader)
  else reader.refill

/-- `token_read_buffer[token_read_offset++]`. -/
def take (reader : Reader) (more : reader.statics.offset < reader.statics.count) : Byte × Reader :=
  have fits : reader.statics.offset < reader.statics.buffer.length := by
    have limit : maxChunk ≤ maxLineLength := by decide
    have filled := reader.statics.filled
    rw [reader.statics.size]
    omega
  (reader.statics.buffer[reader.statics.offset], { reader with statics := { reader.statics with
    offset := reader.statics.offset + 1
    inside := more } })

theorem refill_positive {reader : Reader} (some_ : 0 < reader.refill.1) :
    reader.refill.2.statics.offset < reader.refill.2.statics.count := by
  cases left : reader.chunks with
  | nil => simp [refill, left] at some_
  | cons chunk rest =>
    simp only [refill, left] at some_ ⊢
    exact some_

/-- Where `token_fill_buffer` returns a positive number, a byte is left. -/
theorem fill_positive {reader : Reader} (some_ : 0 < reader.fill.1) :
    reader.fill.2.statics.offset < reader.fill.2.statics.count := by
  unfold fill at some_ ⊢
  split
  · assumption
  · rename_i empty_
    rw [if_neg empty_] at some_
    exact refill_positive some_

/-- `token_fill_buffer` and, where it returned bytes, the next byte of the buffer. -/
def nextByte (reader : Reader) : Option Byte × Reader :=
  if more : 0 < reader.fill.1 then
    let taken := reader.fill.2.take (fill_positive more)
    (some taken.1, taken.2)
  else (none, reader.fill.2)

/-- Carry out an operation. Only reading matters here: what is written is sent. -/
def step : Handler IoSig Reader Fault
  | .nextByte, reader => .done reader.nextByte.1 reader.nextByte.2
  | .write _, reader => .done true reader
  | .getType, reader => .done .fd reader
  | .stale _, reader => .done [] reader
  | .fault why, reader => .halted why reader

end Reader

/-! ## Calls that read -/

/-- A call of `token_read` or `read_line` with its arguments. -/
inductive ReadCall where
  /-- `token_read`, with the size of `literal_buf` where there is one. -/
  | token (literal : Option Nat) (flag : Flag) (m : Nat)
  /-- `read_line`. -/
  | line (capture : Option Capture) (flag : Flag) (m : Nat)
  deriving DecidableEq

/-- What a call returns: nothing where it fails. -/
inductive ReadResult where
  /-- The token, and the bytes placed in `literal_buf`. -/
  | token (read : Option (Token × List Byte))
  /-- The queue, and the buffer with the count of the bytes placed in it. -/
  | line (read : Option (Queue × Option Capture))
  deriving DecidableEq

/-- Make a call. No room in `literal_buf` is no buffer. -/
def ReadCall.make : ReadCall → Dialogue ReadResult
  | .token literal flag m => do
    return .token (← tokenRead (literal.filter fun n => 0 < n) flag m)
  | .line capture flag m => do return .line (← readLineInto capture flag m)

/-- Make calls one after another. -/
def makeCalls : List ReadCall → Dialogue (List ReadResult)
  | [] => return []
  | call :: rest => do
    let result ← call.make
    let results ← makeCalls rest
    return result :: results

end Perdition
