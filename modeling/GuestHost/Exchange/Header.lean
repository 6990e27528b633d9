import GuestHost.Bytes.Utf8
import GuestHost.Table
/-!
# Headers

Names of headers are tokens, compared without regard to the case of ASCII letters; values are
bytes without control characters other than the tab. A value is text if it is ASCII besides.
-/

namespace GuestHost

namespace Exchange

namespace Header

/-- A name with its ASCII letters in lower case. -/
def fold (name : String) : String := name.map Char.toLower

/-- Whether a byte may stand in a token. -/
def isTokenByte (b : UInt8) : Bool :=
  let n := b.toNat
  (48 ≤ n && n ≤ 57) || (65 ≤ n && n ≤ 90) || (94 ≤ n && n ≤ 122) || n == 33 ||
    (35 ≤ n && n ≤ 39) || n == 42 || n == 43 || n == 45 || n == 46 || n == 124 || n == 126

/-- Whether bytes are a token. -/
def isToken (bytes : Bytes) : Bool := bytes ≠ [] && bytes.all isTokenByte

/-- The length that no header's name may pass. -/
def maxNameLength : Nat := 65535

/-- Whether bytes can name a header. -/
def isName (bytes : Bytes) : Bool := isToken bytes && bytes.length ≤ maxNameLength

/-- Whether a byte may stand in a value. -/
def isValueByte (b : UInt8) : Bool := b == 9 || (32 ≤ b && b ≠ 127)

/-- Whether bytes can be a header's value. -/
def isValue (bytes : Bytes) : Bool := bytes.all isValueByte

/-- Whether a byte may stand in a value that is text. -/
def isTextByte (b : UInt8) : Bool := b == 9 || (32 ≤ b && b < 127)

/-- The text of a value, if it is text. -/
def text? (value : Bytes) : Option String :=
  if value.all isTextByte then Utf8.decode? value else none

end Header

/-- Headers with text for values, in the order of their names. -/
abbrev Headers := Table String String

end Exchange

end GuestHost
