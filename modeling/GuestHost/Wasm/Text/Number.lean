import GuestHost.Wasm.Types
/-!
# Whole numbers of the text format

Whole numbers are decimal or, after `0x`, hexadecimal; single underscores may part their digits.
A word of `n` bits may be written with its sign or without.
-/

namespace GuestHost

namespace Wasm

namespace Text

/-- A number read with its sign. -/
structure Signed where
  negative : Bool
  rest : List Char

/-- The sign in front, if there is one. -/
def Signed.of : List Char → Signed
  | '-' :: rest => ⟨true, rest⟩
  | '+' :: rest => ⟨false, rest⟩
  | rest => ⟨false, rest⟩

/-- The number that a digit stands for. -/
def digitValue? (base : Nat) (c : Char) : Option Nat :=
  let value :=
    if '0' ≤ c ∧ c ≤ '9' then c.toNat - 48
    else if 'a' ≤ c ∧ c ≤ 'f' then c.toNat - 87
    else if 'A' ≤ c ∧ c ≤ 'F' then c.toNat - 55
    else base
  if value < base then some value else none

/-- The values of digits behind a digit; an underscore stands between two digits only. -/
def moreValues? (base : Nat) : List Char → Option (List Nat)
  | [] => some []
  | '_' :: c :: rest => do return (← digitValue? base c) :: (← moreValues? base rest)
  | c :: rest => do return (← digitValue? base c) :: (← moreValues? base rest)

/-- The values of a row of digits, of which there is at least one. -/
def values? (base : Nat) : List Char → Option (List Nat)
  | [] => none
  | c :: rest => do return (← digitValue? base c) :: (← moreValues? base rest)

/-- The number that digits make up. -/
def numeral (base : Nat) (values : List Nat) : Nat :=
  values.foldl (fun n value => n * base + value) 0

/-- The number that a row of digits spells. -/
def row? (base : Nat) (cs : List Char) : Option Nat := (values? base cs).map (numeral base)

/-- The whole number that characters spell. -/
def natural? : List Char → Option Nat
  | '0' :: 'x' :: rest => row? 16 rest
  | cs => row? 10 cs

/-- The word of some width that a text spells. -/
def word? (width : Nat) (text : String) : Option Nat := do
  let ⟨negative, rest⟩ := Signed.of text.toList
  let n ← natural? rest
  if negative then
    if n ≤ Nat.pow 2 (width - 1) then some ((Nat.pow 2 width - n) % Nat.pow 2 width) else none
  else if n < Nat.pow 2 width then some n
  else none

/-- The number below `limit` that a text spells, a plus sign in front of it or not. -/
def index? (limit : Nat) (text : String) : Option Nat := do
  let n ← natural? <|
    match text.toList with
    | '+' :: rest => rest
    | cs => cs
  if n < limit then some n else none

end Text

end Wasm

end GuestHost
