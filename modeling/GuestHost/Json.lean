import GuestHost.Bytes.Utf8
/-!
# JSON

The documents that hosts read and write. A document keeps what a reader may have to tell apart:
the spelling of a number, the order and repetition of members, and whether a string spells a text
at all (one with half a surrogate pair, or with bytes that are no UTF-8, does not, and matters
only to a reader that wants its text).
-/

namespace GuestHost

/-- A JSON document. -/
inductive Json where
  | null
  | bool (value : Bool)
  | number (spelling : Bytes)
  | string (text : Option String)
  | array (items : List Json)
  | object (members : List (Option String × Json))

namespace Json

/-- The text of a string that spells one. -/
def text? : Json → Option String
  | string text => text
  | _ => none

/-- Whether a byte is a decimal digit. -/
def isDigit (b : UInt8) : Bool := 48 ≤ b && b ≤ 57

/-- The number that decimal digits spell. -/
def ofDigits (digits : Bytes) : Nat := digits.foldl (fun n d => 10 * n + (d.toNat - 48)) 0

/-- The number below 2^64 that a plain row of digits spells. -/
def word? : Json → Option Nat
  | number spelling =>
    if spelling.all isDigit && ofDigits spelling < 18446744073709551616 then
      some (ofDigits spelling)
    else none
  | _ => none

/-- The whole number that an optional minus sign and a row of digits spell. -/
def int? : Json → Option Int
  | number (45 :: digits) =>
    if digits.all isDigit then some (-(ofDigits digits : Int)) else none
  | number digits => if digits.all isDigit then some (ofDigits digits) else none
  | _ => none

/-- The value of the first member of that name. -/
def member? (name : String) : Json → Option Json
  | object members => members.lookup (some name)
  | _ => none

end Json

end GuestHost
