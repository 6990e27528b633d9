import GuestHost.Bytes.Utf8
/-!
# Tokens of the text format

Parentheses, words and strings. Comments run from two semicolons to the end of the line, or
between `(;` and `;)`, where they may nest. A string spells bytes: `\` and two hexadecimal digits
stand for any byte, `\` and one of a few letters for a control character, and everything else for
itself; a character may also be given by its number in hexadecimal, in braces behind `\u`. A string
touches no other string and no word, save the dollar sign that makes its text a name.
-/

namespace GuestHost

namespace Wasm

namespace Text

/-- A token. -/
inductive Token where
  | opening
  | closing
  | word (text : String)
  | string (bytes : Bytes)
  deriving DecidableEq

/-- Where a reader of tokens stands. -/
inductive Mode where
  | between
  | line
  | comment (depth : Nat)
  | word (reversed : Bytes)
  /-- In a string, which is a name or is not. -/
  | string (named : Bool) (reversed : Bytes)
  /-- In the number of a character of a string: what its digits spell so far, if there are any, and
  whether the last of them is an underscore. -/
  | number (named : Bool) (value : Option Nat) (parted : Bool) (reversed : Bytes)
  /-- Right behind a string. -/
  | closed

/-- Whether a byte is blank. -/
def isBlank (b : UInt8) : Bool := b == 32 || b == 9 || b == 10 || b == 13

/-- Whether a byte ends a line. -/
def endsLine (b : UInt8) : Bool := b == 10 || b == 13

/-- Whether a byte may stand in a word. -/
def isWordByte (b : UInt8) : Bool :=
  let n := b.toNat
  n == 33 || (35 ≤ n && n ≤ 39) || n == 42 || n == 43 || (45 ≤ n && n ≤ 58) ||
    (60 ≤ n && n ≤ 90) || n == 92 || (94 ≤ n && n ≤ 122) || n == 124 || n == 126

/-- The number that a hexadecimal digit stands for. -/
def hexValue? (b : UInt8) : Option Nat :=
  let n := b.toNat
  if 48 ≤ n ∧ n ≤ 57 then some (n - 48)
  else if 97 ≤ n ∧ n ≤ 102 then some (n - 87)
  else if 65 ≤ n ∧ n ≤ 70 then some (n - 55)
  else none

/-- The byte that a one-letter escape stands for. -/
def escape? (b : UInt8) : Option UInt8 :=
  if b = 116 then some 9
  else if b = 110 then some 10
  else if b = 114 then some 13
  else if b = 34 ∨ b = 39 ∨ b = 92 then some b
  else none

/-- The bytes of the character that a number stands for. -/
def scalar? (n : Nat) : Option Bytes :=
  if n.isValidChar then some (Utf8.encode (Char.ofNat n).toString) else none

/-- The word that bytes in reverse spell. -/
def wordOf (reversed : Bytes) : Token := .word ((Utf8.decode? reversed.reverse).getD "")

/-- The token of a string whose bytes in reverse are `reversed`. A name is text and not empty. -/
def stringOf? (named : Bool) (reversed : Bytes) : Option Token :=
  if !named then some (.string reversed.reverse)
  else if reversed.isEmpty then none
  else do return .word ("$" ++ (← Utf8.decode? reversed.reverse))

/-- The tokens of a text. -/
def tokens? : Mode → Bytes → Option (List Token)
  | .between, [] => some []
  | .between, 59 :: 59 :: rest => tokens? .line rest
  | .between, 40 :: 59 :: rest => tokens? (.comment 0) rest
  | .between, 40 :: rest => (tokens? .between rest).map (.opening :: ·)
  | .between, 41 :: rest => (tokens? .between rest).map (.closing :: ·)
  | .between, 34 :: rest => tokens? (.string false []) rest
  | .between, 36 :: 34 :: rest => tokens? (.string true []) rest
  | .between, b :: rest =>
    if isBlank b then tokens? .between rest
    else if isWordByte b then tokens? (.word [b]) rest
    else none
  | .line, [] => some []
  | .line, b :: rest => if endsLine b then tokens? .between rest else tokens? .line rest
  | .comment _, [] => none
  | .comment 0, 59 :: 41 :: rest => tokens? .between rest
  | .comment (depth + 1), 59 :: 41 :: rest => tokens? (.comment depth) rest
  | .comment depth, 40 :: 59 :: rest => tokens? (.comment (depth + 1)) rest
  | .comment depth, _ :: rest => tokens? (.comment depth) rest
  | .word reversed, [] => some [wordOf reversed]
  | .word reversed, 59 :: 59 :: rest => (tokens? .line rest).map (wordOf reversed :: ·)
  | .word reversed, 40 :: 59 :: rest => (tokens? (.comment 0) rest).map (wordOf reversed :: ·)
  | .word reversed, 40 :: rest => (tokens? .between rest).map (wordOf reversed :: .opening :: ·)
  | .word reversed, 41 :: rest => (tokens? .between rest).map (wordOf reversed :: .closing :: ·)
  | .word reversed, b :: rest =>
    if isBlank b then (tokens? .between rest).map (wordOf reversed :: ·)
    else if isWordByte b then tokens? (.word (b :: reversed)) rest
    else none
  | .string _ _, [] => none
  | .string named reversed, 34 :: rest => do
    return (← stringOf? named reversed) :: (← tokens? .closed rest)
  | .string _ _, [92] => none
  | .string named reversed, 92 :: 117 :: 123 :: rest =>
    tokens? (.number named none false reversed) rest
  | .string named reversed, 92 :: e :: rest =>
    match escape? e with
    | some b => tokens? (.string named (b :: reversed)) rest
    | none =>
      match rest with
      | f :: rest =>
        match hexValue? e, hexValue? f with
        | some high, some low =>
          tokens? (.string named (UInt8.ofNat (16 * high + low) :: reversed)) rest
        | _, _ => none
      | [] => none
  | .string named reversed, b :: rest =>
    if b < 32 ∨ b = 127 then none else tokens? (.string named (b :: reversed)) rest
  | .number _ _ _ _, [] => none
  | .number named value parted reversed, b :: rest =>
    match hexValue? b, value with
    | some digit, none => tokens? (.number named (some digit) false reversed) rest
    | some digit, some n =>
      if n < 0x110000 then tokens? (.number named (some (16 * n + digit)) false reversed) rest
      else none
    | none, some n =>
      if b = 95 then tokens? (.number named (some n) true reversed) rest
      else if b = 125 ∧ !parted then do
        let bytes ← scalar? n
        tokens? (.string named (bytes.reverse ++ reversed)) rest
      else none
    | none, none => none
  | .closed, [] => some []
  | .closed, 59 :: 59 :: rest => tokens? .line rest
  | .closed, 40 :: 59 :: rest => tokens? (.comment 0) rest
  | .closed, 40 :: rest => (tokens? .between rest).map (.opening :: ·)
  | .closed, 41 :: rest => (tokens? .between rest).map (.closing :: ·)
  | .closed, b :: rest => if isBlank b then tokens? .between rest else none

end Text

end Wasm

end GuestHost
