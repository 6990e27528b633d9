import GuestHost.Bytes
/-!
# Pairs of byte strings

The encoding in which headers and key-value pairs reach a guest: first the number of parts, twice
the number of pairs, then each part with its length in front. All numbers are 32-bit words,
least significant byte first. `decode?` reads an encoding off the front of a longer byte string.
-/

namespace GuestHost

namespace Pairs

/-- One part, its length in front. -/
def part (bytes : Bytes) : Bytes := Bytes.ofWord 4 bytes.length ++ bytes

/-- The parts of a list of pairs, without the count in front. -/
def parts : List (Bytes × Bytes) → Bytes
  | [] => []
  | (key, value) :: rest => part key ++ part value ++ parts rest

/-- The encoding of a list of pairs. -/
def encode (pairs : List (Bytes × Bytes)) : Bytes :=
  Bytes.ofWord 4 (2 * pairs.length) ++ parts pairs

/-- The word at the front and the bytes behind it. -/
def word? (bytes : Bytes) : Option (Nat × Bytes) :=
  if 4 ≤ bytes.length then some (Bytes.toWord (bytes.take 4), bytes.drop 4) else none

/-- The part at the front and the bytes behind it. -/
def part? (bytes : Bytes) : Option (Bytes × Bytes) := do
  let (length, rest) ← word? bytes
  if length ≤ rest.length then some (rest.take length, rest.drop length) else none

/-- As many pairs as asked for, and the bytes behind them. -/
def parts? : Nat → Bytes → Option (List (Bytes × Bytes) × Bytes)
  | 0, bytes => some ([], bytes)
  | count + 1, bytes => do
    let (key, bytes) ← part? bytes
    let (value, bytes) ← part? bytes
    let (pairs, bytes) ← parts? count bytes
    return ((key, value) :: pairs, bytes)

/-- The list of pairs encoded at the front, and the bytes behind it. -/
def decode? (bytes : Bytes) : Option (List (Bytes × Bytes) × Bytes) := do
  let (count, bytes) ← word? bytes
  if count % 2 = 0 then parts? (count / 2) bytes else none

end Pairs

end GuestHost
