import CheckHarness.Text.Bytes
import CheckHarness.Text.Hex

namespace CheckHarness.Noise

/-- The hash of the empty byte string. -/
def basis : UInt64 :=
  0xcbf29ce484222325

/-- The odd factor of each step, which makes a step invertible. -/
def prime : UInt64 :=
  0x100000001b3

/-- Takes one byte into the hash: first the byte, then the factor, modulo 2^64. -/
def mix (hash : UInt64) (byte : UInt8) : UInt64 :=
  (hash ^^^ byte.toUInt64) * prime

def hash (bytes : Bytes) : UInt64 :=
  bytes.foldl mix basis

/-- A word in sixteen hexadecimal digits, the most significant first. -/
def hexWord (word : UInt64) : List Char :=
  (List.range 16).map fun i => Hex.digit (word.toNat >>> (4 * (15 - i)) % 16)

/-- The noise that belongs to the chain with the given text. Anyone who knows the chain can compute
it, so a later task knows what an earlier one stored. It is the FNV-1a hash of the text in sixteen
hexadecimal digits. -/
def ofChain (chain : String) : String :=
  "noise-" ++ String.ofList (hexWord (hash (Bytes.ofText chain)))

end CheckHarness.Noise
