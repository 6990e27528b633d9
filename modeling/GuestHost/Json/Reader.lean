import GuestHost.Json
/-!
# Reading JSON

A strict reader: one document, blanks around it allowed, nothing else behind it.
-/

namespace GuestHost

namespace Json

/-- Whether a byte is blank between tokens. -/
def isBlank (b : UInt8) : Bool := b == 32 || b == 10 || b == 13 || b == 9

/-- The bytes from the first one that is not blank. -/
def skipBlank (bytes : Bytes) : Bytes := bytes.dropWhile isBlank

/-- What a string is spelled with: bytes that stand for themselves and numbered code units. -/
inductive Piece where
  | byte (b : UInt8)
  | unit (n : Nat)

/-- The number that a hexadecimal digit stands for. -/
def hexValue? (b : UInt8) : Option Nat :=
  let n := b.toNat
  if 48 ≤ n ∧ n ≤ 57 then some (n - 48)
  else if 97 ≤ n ∧ n ≤ 102 then some (n - 87)
  else if 65 ≤ n ∧ n ≤ 70 then some (n - 55)
  else none

/-- The code unit that four hexadecimal digits number. -/
def unit? (a b c d : UInt8) : Option Nat := do
  let a ← hexValue? a
  let b ← hexValue? b
  let c ← hexValue? c
  let d ← hexValue? d
  return ((a * 16 + b) * 16 + c) * 16 + d

/-- The byte that a one-letter escape stands for. -/
def escape? (b : UInt8) : Option UInt8 :=
  if b = 34 ∨ b = 92 ∨ b = 47 then some b
  else if b = 98 then some 8
  else if b = 102 then some 12
  else if b = 110 then some 10
  else if b = 114 then some 13
  else if b = 116 then some 9
  else none

/-- The pieces up to the closing quote, and the bytes behind it. -/
def pieces? : Bytes → Option (List Piece × Bytes)
  | [] => none
  | 34 :: rest => some ([], rest)
  | 92 :: 117 :: a :: b :: c :: d :: rest => do
    let n ← unit? a b c d
    let (pieces, rest) ← pieces? rest
    return (.unit n :: pieces, rest)
  | 92 :: e :: rest => do
    let b ← escape? e
    let (pieces, rest) ← pieces? rest
    return (.byte b :: pieces, rest)
  | b :: rest => do
    if b < 32 ∨ b = 92 then none
    let (pieces, rest) ← pieces? rest
    return (.byte b :: pieces, rest)

/-- Whether a code unit is the first half of a pair. -/
def isHigh (n : Nat) : Bool := 0xd800 ≤ n && n < 0xdc00

/-- Whether a code unit is the second half of a pair. -/
def isLow (n : Nat) : Bool := 0xdc00 ≤ n && n < 0xe000

/-- The bytes that pieces spell, if every half of a pair has its other half. -/
def assemble? : List Piece → Option Bytes
  | [] => some []
  | .byte b :: rest => (assemble? rest).map (b :: ·)
  | .unit n :: rest =>
    if isLow n then none
    else if isHigh n then
      match rest with
      | .unit m :: rest =>
        if isLow m then
          (assemble? rest).map
            (Utf8.encode (Char.ofNat (0x10000 + (n - 0xd800) * 0x400 + (m - 0xdc00))).toString ++ ·)
        else none
      | _ => none
    else (assemble? rest).map (Utf8.encode (Char.ofNat n).toString ++ ·)

/-- The text that pieces spell, if they spell one. -/
def spelled? (pieces : List Piece) : Option String := (assemble? pieces).bind Utf8.decode?

/-- The digits at the front, at least one, and the bytes behind them. -/
def digits? (bytes : Bytes) : Option (Bytes × Bytes) :=
  match bytes.takeWhile isDigit with
  | [] => none
  | digits => some (digits, bytes.dropWhile isDigit)

/-- Digits of a whole number: no zero in front of others. -/
def whole? (bytes : Bytes) : Option (Bytes × Bytes) := do
  let (digits, rest) ← digits? bytes
  if digits.length = 1 ∨ digits.head? ≠ some 48 then some (digits, rest) else none

/-- The part behind the point, if there is a point. -/
def fraction? : Bytes → Option (Bytes × Bytes)
  | 46 :: rest => (digits? rest).map fun (digits, rest) => (46 :: digits, rest)
  | bytes => some ([], bytes)

/-- The power of ten, if there is one. -/
def exponent? : Bytes → Option (Bytes × Bytes)
  | e :: bytes =>
    if e = 69 ∨ e = 101 then
      match bytes with
      | s :: rest =>
        if s = 43 ∨ s = 45 then
          (digits? rest).map fun (digits, rest) => (e :: s :: digits, rest)
        else (digits? bytes).map fun (digits, rest) => (e :: digits, rest)
      | [] => none
    else some ([], e :: bytes)
  | [] => some ([], [])

/-- The spelling of a number at the front, and the bytes behind it. -/
def number? (bytes : Bytes) : Option (Bytes × Bytes) := do
  let (sign, rest) := match bytes with
    | 45 :: rest => ([45], rest)
    | bytes => (([] : Bytes), bytes)
  let (whole, rest) ← whole? rest
  let (fraction, rest) ← fraction? rest
  let (exponent, rest) ← exponent? rest
  return (sign ++ whole ++ fraction ++ exponent, rest)

mutual

/-- The document at the front, and the bytes behind it; `depth` bounds the steps of the reader. -/
def value? : Nat → Bytes → Option (Json × Bytes)
  | 0, _ => none
  | depth + 1, bytes =>
    match skipBlank bytes with
    | 110 :: 117 :: 108 :: 108 :: rest => some (null, rest)
    | 116 :: 114 :: 117 :: 101 :: rest => some (bool true, rest)
    | 102 :: 97 :: 108 :: 115 :: 101 :: rest => some (bool false, rest)
    | 34 :: rest => do
      let (pieces, rest) ← pieces? rest
      return (string (spelled? pieces), rest)
    | 91 :: rest =>
      match skipBlank rest with
      | 93 :: rest => some (array [], rest)
      | rest => do
        let (items, rest) ← items? depth rest
        return (array items, rest)
    | 123 :: rest =>
      match skipBlank rest with
      | 125 :: rest => some (object [], rest)
      | rest => do
        let (members, rest) ← members? depth rest
        return (object members, rest)
    | bytes => do
      let (spelling, rest) ← number? bytes
      return (number spelling, rest)

/-- Items up to the closing bracket. -/
def items? : Nat → Bytes → Option (List Json × Bytes)
  | 0, _ => none
  | depth + 1, bytes => do
    let (item, rest) ← value? depth bytes
    match skipBlank rest with
    | 44 :: rest =>
      let (items, rest) ← items? depth rest
      return (item :: items, rest)
    | 93 :: rest => return ([item], rest)
    | _ => none

/-- Members up to the closing brace. -/
def members? : Nat → Bytes → Option (List (Option String × Json) × Bytes)
  | 0, _ => none
  | depth + 1, bytes =>
    match skipBlank bytes with
    | 34 :: rest => do
      let (pieces, rest) ← pieces? rest
      match skipBlank rest with
      | 58 :: rest =>
        let (item, rest) ← value? depth rest
        match skipBlank rest with
        | 44 :: rest =>
          let (members, rest) ← members? depth rest
          return ((spelled? pieces, item) :: members, rest)
        | 125 :: rest => return ([(spelled? pieces, item)], rest)
        | _ => none
      | _ => none
    | _ => none

end

/-- The document that bytes spell. -/
def parse? (bytes : Bytes) : Option Json :=
  match value? (2 * bytes.length + 1) bytes with
  | some (document, rest) => if skipBlank rest = [] then some document else none
  | none => none

end Json

end GuestHost
