import GuestHost.Bytes
/-!
# Hexadecimal text

Two lower-case digits for each byte. Reading takes digits of either case and refuses everything
else, an odd number of digits included.
-/

namespace GuestHost

namespace Hex

/-- The digit of a number below sixteen. -/
def digit (n : Nat) : Char := if n < 10 then Char.ofNat (48 + n) else Char.ofNat (87 + n)

/-- The number that a digit stands for. -/
def value? (c : Char) : Option Nat :=
  if '0' ≤ c ∧ c ≤ '9' then some (c.toNat - 48)
  else if 'a' ≤ c ∧ c ≤ 'f' then some (c.toNat - 87)
  else if 'A' ≤ c ∧ c ≤ 'F' then some (c.toNat - 55)
  else none

/-- The digits of a byte string. -/
def digits : Bytes → List Char
  | [] => []
  | b :: rest => digit (b.toNat / 16) :: digit (b.toNat % 16) :: digits rest

/-- The text of a byte string. -/
def encode (bytes : Bytes) : String := String.ofList (digits bytes)

/-- The byte string that a row of digits spells. -/
def ofDigits? : List Char → Option Bytes
  | [] => some []
  | [_] => none
  | high :: low :: rest => do
    let high ← value? high
    let low ← value? low
    let rest ← ofDigits? rest
    return UInt8.ofNat (16 * high + low) :: rest

/-- The byte string that a text spells. -/
def decode? (text : String) : Option Bytes := ofDigits? text.toList

end Hex

end GuestHost
