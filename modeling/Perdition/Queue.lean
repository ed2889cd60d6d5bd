import Perdition.Token

/-!
# Lines as queues of tokens

`queue_func.c`. A queue holds its tokens in the order they were pushed.
-/
namespace Perdition

/-- A queue of tokens, the first to be popped in front. -/
abbrev Queue := List Token

/-- One round of the loop of `read_line`: a token, after which the line may end. -/
def readLineRound (capture : Option Nat) (flag : Flag) (m : Nat) (read : Queue × List Byte) :
    Dialogue ((Queue × List Byte) ⊕ Option (Queue × List Byte)) := do
  let remaining := capture.map fun n => n - read.2.length
  match ← tokenRead remaining flag m with
  | none => return .inr none
  | some (t, literal) =>
    let q := read.1 ++ [t]
    let captured := read.2 ++ literal
    let full := match capture with
      | none => false
      | some n => n ≤ captured.length
    if !flag.has tokenImap4Literal && !t.isEol && !full then return .inl (q, captured)
    else return .inr (some (q, captured))

/-- `read_line`. The capture is the size of the buffer, where there is one; the bytes placed in it
are returned with the queue, and the rest of it is zero. -/
def readLine (capture : Option Nat) (flag : Flag) (m : Nat) :
    Dialogue (Option (Queue × List Byte)) :=
  .loop (readLineRound capture flag m) (([], []) : Queue × List Byte)

/-- The buffer of a captured response and the count of its bytes that may be used. -/
structure Capture where
  /-- `buf`. -/
  buf : List Byte
  /-- `*n`. -/
  n : Nat
  deriving DecidableEq

/-- `read_line` into a buffer: the part that may be used is cleared, the bytes of the line are placed
in it and their count is stored. A count of zero is no buffer. -/
def readLineInto (capture : Option Capture) (flag : Flag) (m : Nat) :
    Dialogue (Option (Queue × Option Capture)) :=
  match capture with
  | none => do
    match ← readLine none flag m with
    | none => return none
    | some (q, _) => return some (q, none)
  | some c => do
    match ← readLine (if c.n = 0 then none else some c.n) flag m with
    | none => return none
    | some (q, captured) =>
      if c.n = 0 then return some (q, some c)
      else return some (q, some ⟨captured ++ List.replicate (c.n - captured.length) 0 ++
        c.buf.drop c.n, captured.length⟩)

/-- `strncpy(pos, t->buf, t->n)`: the bytes before a NUL, padded with NULs. -/
def strncpyBytes (content : List Byte) : List Byte :=
  let copied := content.takeWhile (· != 0)
  copied ++ List.replicate (content.length - copied.length) 0

/-- Bytes without NUL are copied as they are. -/
theorem strncpyBytes_noNul {content : List Byte} (noNul : 0 ∉ content) :
    strncpyBytes content = content := by
  have whole : content.takeWhile (· != 0) = content := cstr_content noNul
  simp [strncpyBytes, whole]

/-- `queue_to_string`: the tokens with a space after each but the last. An empty queue gets a block
of no bytes, and the NUL is written before it; then there is no result. -/
def queueToString (q : Queue) : Option CString :=
  match q with
  | [] => none
  | _ => some (cstr ((q.flatMap fun t => strncpyBytes t.buf ++ [space]).dropLast))

end Perdition
