import Perdition.Bytes

/-!
# The checksum of the options

`str_rolling32` of `str.c` and `greeting_checksum`. A byte that is read outside the buffer has no value;
then there is no result.
-/
namespace Perdition

/-- The loop of `str_rolling32` over the bytes from `i` on: `i`, the count of the bytes that were read,
and `csum`. -/
def strRolling32Loop (bound : UInt64) : UInt64 → UInt32 → List Byte → Option (UInt64 × UInt32)
  | i, csum, [] => if i < bound then none else some (i, csum)
  | i, csum, b :: rest =>
    if i < bound then strRolling32Loop bound (i + 1) (csum + b.toUInt32) rest else some (i, csum)

/-- `str_rolling32`: the count of the bytes that it reads, and the checksum. The bound of the loop is
`len - 1`. -/
def strRolling32 (buf : List Byte) (len : UInt64) : Option (UInt64 × UInt32) :=
  strRolling32Loop (len - 1) 0 0 buf

/-- `greeting_checksum` of the strings of `log_options_str`. -/
def greetingChecksum (strings : List CString) : Option UInt32 :=
  strings.foldlM (fun csum str => do
    let (_, part) ← strRolling32 (str.content ++ [0]) (UInt64.ofNat str.length)
    return csum + part) 0

end Perdition
