import GuestHost.Wasm.Text.Token
/-!
# Trees of the text format

Tokens grouped by their parentheses, which have to be balanced. A dollar sign starts a name, so it
is no word of its own. A text that holds a character that turns the direction of writing has no
trees, wherever the character stands: such a text would not be read as it is shown.
-/

namespace GuestHost

namespace Wasm

namespace Text

/-- A word, a string, or what stands between two parentheses. -/
inductive Tree where
  | word (text : String)
  | string (bytes : Bytes)
  | list (items : List Tree)

/-- The trees that tokens group into. The stack holds, innermost first and each in reverse, what
has been read of the lists that are open. -/
def Tree.build? : List Token → List (List Tree) → Option (List Tree)
  | [], [top] => some top.reverse
  | .opening :: rest, stack => build? rest ([] :: stack)
  | .closing :: rest, top :: outer :: stack => build? rest ((.list top.reverse :: outer) :: stack)
  | .word text :: rest, top :: stack =>
    if text = "$" then none else build? rest ((.word text :: top) :: stack)
  | .string bytes :: rest, top :: stack => build? rest ((.string bytes :: top) :: stack)
  | _, _ => none

/-- Whether a character turns the direction of writing, or is shown so. -/
def isTurning (c : Char) : Bool :=
  [0x202a, 0x202b, 0x202d, 0x202e, 0x2066, 0x2067, 0x2068, 0x2069, 0x206c].contains c.toNat

/-- The trees of a text. -/
def Tree.ofText? (text : Bytes) : Option (List Tree) := do
  if (← Utf8.decode? text).toList.any isTurning then none
  build? (← tokens? .between text) [[]]

end Text

end Wasm

end GuestHost
