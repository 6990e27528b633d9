import GuestHost.Json
/-!
# Writing JSON

Compact text: no blanks, and in strings only quotes, backslashes and control characters are
escaped.
-/

namespace GuestHost

namespace Json

/-- The lower-case hexadecimal digit of a number below sixteen. -/
def hexDigit (n : Nat) : UInt8 := if n < 10 then UInt8.ofNat (48 + n) else UInt8.ofNat (87 + n)

/-- A byte of a text as it stands between quotes. -/
def escaped (b : UInt8) : Bytes :=
  if b = 34 then [92, 34]
  else if b = 92 then [92, 92]
  else if b = 8 then [92, 98]
  else if b = 12 then [92, 102]
  else if b = 10 then [92, 110]
  else if b = 13 then [92, 114]
  else if b = 9 then [92, 116]
  else if b < 32 then [92, 117, 48, 48, hexDigit (b.toNat / 16), hexDigit (b.toNat % 16)]
  else [b]

/-- A text in quotes. -/
def quoted (text : String) : Bytes := 34 :: ((Utf8.encode text).flatMap escaped ++ [34])

/-- The decimal digits of a number. -/
def decimal (n : Nat) : Bytes := (Nat.toDigits 10 n).map fun c => UInt8.ofNat c.toNat

/-- Members that are written already, in braces. -/
def braced (members : List (String × Bytes)) : Bytes :=
  123 :: (List.intercalate [44] (members.map fun m => quoted m.1 ++ 58 :: m.2) ++ [125])

/-- Items that are written already, in brackets. -/
def bracketed (items : List Bytes) : Bytes := 91 :: (List.intercalate [44] items ++ [93])

end Json

end GuestHost
