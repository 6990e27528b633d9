import GuestHost.Web.Percent
import GuestHost.Web.Punycode
/-!
# Hosts of addresses

A host is a name, four bytes written as numbers, or an address of eight groups in brackets. A host
whose last label is a number has to be numeric. The hosts of schemes that are not of the web are
taken as they are, brackets apart.
-/

namespace GuestHost

namespace Host

/-- Characters split at every `mark`. -/
def splitAt (mark : Char) : List Char → List (List Char)
  | [] => [[]]
  | c :: rest =>
    match splitAt mark rest with
    | [] => [[]]
    | head :: tail => if c = mark then [] :: head :: tail else (c :: head) :: tail

/-- The number that decimal digits spell. -/
def decimal? (cs : List Char) : Option Nat :=
  if cs.all Char.isDigit then some (cs.foldl (fun n c => 10 * n + (c.toNat - 48)) 0) else none

/-! ## Groups in brackets -/

/-- Whether characters are a group: up to four hexadecimal digits. -/
def isGroup (cs : List Char) : Bool :=
  cs ≠ [] && cs.length ≤ 4 && cs.all fun c => (Hex.value? c).isSome

/-- Whether characters are a byte in decimal, without zeros in front. -/
def isByte (cs : List Char) : Bool :=
  cs ≠ [] && (cs.head? ≠ some '0' || cs.length = 1) && (decimal? cs).any (· < 256)

/-- Whether characters are four bytes with points between them. -/
def isDotted (cs : List Char) : Bool :=
  let bytes := splitAt '.' cs
  bytes.length = 4 && bytes.all isByte

/-- The number of groups that parts make up; the last may be dotted, which makes two. -/
def groups? : List (List Char) → Option Nat
  | [] => some 0
  | [last] => if isGroup last then some 1 else if isDotted last then some 2 else none
  | part :: rest => if isGroup part then (groups? rest).map (· + 1) else none

/-- The number of groups that characters with colons between them make up. -/
def groupsOf? (cs : List Char) : Option Nat := if cs = [] then some 0 else groups? (splitAt ':' cs)

/-- What stands in front of the first pair of colons and what behind it, if there is one. -/
def atGap? : List Char → Option (List Char × List Char)
  | ':' :: ':' :: rest => some ([], rest)
  | c :: rest => (atGap? rest).map fun (front, behind) => (c :: front, behind)
  | [] => none

/-- Whether characters are an address of eight groups, of which one pair of colons may leave out
some that are zero. -/
def isGrouped (cs : List Char) : Bool :=
  match atGap? cs with
  | none => groupsOf? cs = some 8
  | some (front, behind) =>
    front.all (· ≠ '.') &&
      match groupsOf? front, groupsOf? behind with
      | some before, some after => before + after ≤ 7
      | _, _ => false

/-- A host in brackets, the first of which has been read. -/
def bracketed? (cs : List Char) : Option String :=
  match cs.reverse with
  | ']' :: inner =>
    if isGrouped inner.reverse then some (String.ofList ('[' :: cs.map Char.toLower)) else none
  | _ => none

/-! ## Names and numbers -/

/-- A part of a numeric host: decimal, or hexadecimal or octal by its start. -/
def part? : List Char → Option Nat
  | [] => none
  | '0' :: 'x' :: rest => rest.foldlM (fun n c => (Hex.value? c).map (16 * n + ·)) 0
  | '0' :: rest =>
    if rest.all fun c => '0' ≤ c && c ≤ '7' then
      some (rest.foldl (fun n c => 8 * n + (c.toNat - 48)) 0)
    else none
  | cs => decimal? cs

/-- The numeric host that parts make up: each but the last is one byte, the last fills up. -/
def numeric? (parts : List Nat) : Option Nat :=
  match parts.reverse with
  | [] => none
  | last :: before =>
    if before.length ≤ 3 ∧ before.all (· < 256) ∧ last < Nat.pow 256 (4 - before.length) then
      some (before.reverse.zipIdx.foldl
        (fun total (n, i) => total + n * Nat.pow 256 (3 - i)) last)
    else none

/-- A numeric host as it is written. -/
def dotted (n : Nat) : String :=
  ".".intercalate [toString (n / 16777216 % 256), toString (n / 65536 % 256),
    toString (n / 256 % 256), toString (n % 256)]

/-- What a character beyond ASCII stands for in the name of a host: a wide form for the narrow
one, a full stop of any kind for a point, a blank of any width for a blank, and a character that
is not shown for nothing. -/
def plain (c : Char) : List Char :=
  let n := c.toNat
  if 0xff01 ≤ n ∧ n ≤ 0xff5e then [Char.ofNat (n - 0xfee0)]
  else if n = 0x3002 ∨ n = 0xff61 then ['.']
  else if n = 0xa0 ∨ (0x2000 ≤ n ∧ n ≤ 0x200a) ∨ n = 0x202f ∨ n = 0x205f ∨ n = 0x3000 then [' ']
  else if n = 0xad ∨ n = 0x200b ∨ n = 0x2060 ∨ n = 0x2064 ∨ n = 0xfeff ∨
      (0xfe00 ≤ n ∧ n ≤ 0xfe0f) then []
  else [c]

/-- Whether a character may not stand in the name of a host. -/
def isForbidden (c : Char) : Bool :=
  let n := c.toNat
  n ≤ 32 || (127 ≤ n && n ≤ 0x9f) || (0x200c ≤ n && n ≤ 0x200f) || (0x2028 ≤ n && n ≤ 0x202e) ||
    (0x2066 ≤ n && n ≤ 0x206f) || (0xe000 ≤ n && n ≤ 0xf8ff) || n == 0xfffd ||
    0xf0000 ≤ n ||
    ['#', '%', '/', ':', '<', '>', '?', '@', '[', '\\', ']', '^', '|'].contains c

/-- Whether the part of a label behind `xn--` writes a name beyond ASCII. -/
def isWritten (cs : List Char) : Bool :=
  match Punycode.decode? cs with
  | some name => name.any (128 ≤ ·) && name.all fun n => !isForbidden (Char.ofNat n)
  | none => false

/-- Whether a label is well formed as far as it writes characters beyond ASCII. -/
def isLabel : List Char → Bool
  | 'x' :: 'n' :: '-' :: '-' :: rest => isWritten rest
  | _ => true

/-- A host given by its name or by numbers. -/
def named? (cs : List Char) : Option String := do
  let text ← Utf8.decode? (Percent.decode (Utf8.encode (String.ofList cs)))
  let cs := (text.toList.flatMap plain).map Char.toLower
  let labels := splitAt '.' cs
  if cs = [] || cs.any isForbidden || !labels.all isLabel then none
  let labels := if labels.getLast? = some [] ∧ labels.length > 1 then labels.dropLast else labels
  match labels.getLast? with
  | some last =>
    if (last ≠ [] && last.all Char.isDigit) || (part? last).isSome then
      (numeric? (← labels.mapM part?)).map dotted
    else some (String.ofList cs)
  | none => none

/-- A host of a scheme of the web. -/
def ofWeb? : List Char → Option String
  | '[' :: rest => bracketed? rest
  | cs => named? cs

/-- Whether a character may not stand in a host of another scheme. -/
def isForbiddenElsewhere (c : Char) : Bool :=
  ['\x00', '\t', '\n', '\r', ' ', '#', '/', ':', '<', '>', '?', '@', '[', '\\', ']', '^',
    '|'].contains c

/-- A host of a scheme that is not of the web. -/
def elsewhere? : List Char → Option String
  | '[' :: rest => bracketed? rest
  | cs =>
    if cs.any isForbiddenElsewhere then none
    else some (String.ofList (Percent.encode (fun c => ' ' ≤ c && c ≤ '~') cs))

end Host

end GuestHost
