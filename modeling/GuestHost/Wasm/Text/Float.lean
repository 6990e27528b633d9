import GuestHost.Wasm.Text.Number
/-!
# Floating-point numbers of the text format

A floating-point number is decimal or, after `0x`, hexadecimal, with a point and an exponent or
without. It stands for the float nearest to the number that is written, of two equally near ones
for the one with the even last bit. Of a hexadecimal number only so many digits are kept as fill
the width of the format; `ofHexadecimal?` says what becomes of the others.
-/

namespace GuestHost

namespace Wasm

namespace Text

/-- A format of floating-point numbers: the bits of the significand, the leading one included,
the bits of the exponent, and the least exponent of a significand taken as a whole number. -/
structure FloatFormat where
  precision : Nat
  exponentBits : Nat
  least : Int

/-- A number as it is written: the values of its digits, how many of them stand behind the point,
and the sign and the digits of the exponent. -/
structure Written where
  digits : List Nat
  behind : Nat
  shrinks : Bool
  exponent : List Nat

namespace Written

/-- The exponent. -/
def power (w : Written) : Int :=
  let n := numeral 10 w.exponent
  if w.shrinks then -n else n

/-- The exponent, of which no digit counts behind those that reach 65536. -/
def cappedPower (w : Written) : Int :=
  let n : Nat := w.exponent.foldl (fun n value => if n < 65536 then 10 * n + value else n) 0
  if w.shrinks then -n else n

/-- The values of digits with a point in them, and how many of them stand behind the point. -/
def pointed? (base : Nat) (cs : List Char) : Option (List Nat × Nat) := do
  let whole ← values? base (cs.takeWhile (· ≠ '.'))
  match cs.dropWhile (· ≠ '.') with
  | [] => return (whole, 0)
  | [_] => return (whole, 0)
  | _ :: fraction =>
    let fraction ← values? base fraction
    return (whole ++ fraction, fraction.length)

/-- The number that characters write: digits in some base, and behind one of `marks` the
exponent. -/
def read? (base : Nat) (marks : List Char) (cs : List Char) : Option Written := do
  let (digits, behind) ← pointed? base (cs.takeWhile fun c => !marks.contains c)
  match cs.dropWhile fun c => !marks.contains c with
  | [] => return ⟨digits, behind, false, []⟩
  | _ :: rest =>
    let ⟨negative, rest⟩ := Signed.of rest
    return ⟨digits, behind, negative, ← values? 10 rest⟩

end Written

namespace FloatFormat

/-- Single precision. -/
def single : FloatFormat := ⟨24, 8, -149⟩

/-- Double precision. -/
def double : FloatFormat := ⟨53, 11, -1074⟩

/-- The bits of infinity. -/
def infinity (f : FloatFormat) : Nat := (Nat.pow 2 f.exponentBits - 1) * Nat.pow 2 (f.precision - 1)

/-- The bits of the not-a-number that a text without a payload stands for. -/
def nan (f : FloatFormat) : Nat := f.infinity + Nat.pow 2 (f.precision - 2)

/-- The bits of the not-a-number with a payload, which is not zero. -/
def nanOf? (f : FloatFormat) (payload : Nat) : Option Nat :=
  if 0 < payload ∧ payload < Nat.pow 2 (f.precision - 1) then some (f.infinity + payload) else none

/-- The bit of the sign. -/
def sign (f : FloatFormat) : Nat := Nat.pow 2 (f.precision - 1 + f.exponentBits)

/-- The number of hexadecimal digits that fill the format. -/
def hexDigits (f : FloatFormat) : Nat := (f.precision + f.exponentBits) / 4

/-- A quotient rounded to the nearest whole number, a half to the even one. -/
def roundDiv (num den : Nat) : Nat :=
  let quotient := num / den
  let rest := 2 * (num % den)
  if rest > den ∨ (rest = den ∧ quotient % 2 = 1) then quotient + 1 else quotient

/-- The quotient of two numbers divided by a power of two and rounded. -/
def scaled (num den : Nat) (exponent : Int) : Nat :=
  if 0 ≤ exponent then roundDiv num (den * Nat.pow 2 exponent.toNat)
  else roundDiv (num * Nat.pow 2 (-exponent).toNat) den

/-- The bits of the float nearest to a quotient, if the quotient is not too great. -/
def nearest? (f : FloatFormat) (num den : Nat) : Option Nat :=
  if num = 0 then some 0
  else
    let guess : Int := (Nat.log2 num : Int) - Nat.log2 den - f.precision
    let exponent := max guess f.least
    let exponent :=
      if scaled num den exponent < Nat.pow 2 f.precision then exponent else exponent + 1
    let exponent :=
      if scaled num den exponent < Nat.pow 2 f.precision then exponent else exponent + 1
    let significand := scaled num den exponent
    let lead := Nat.pow 2 (f.precision - 1)
    let bits := ((exponent - f.least).toNat) * lead + significand
    if bits < f.infinity then some bits else none

/-- The bits of the float nearest to a number times a power of `radix`. -/
def nearestPower? (f : FloatFormat) (radix n : Nat) (exponent : Int) : Option Nat :=
  if 0 ≤ exponent then f.nearest? (n * Nat.pow radix exponent.toNat) 1
  else f.nearest? n (Nat.pow radix (-exponent).toNat)

/-- The bits of the float nearest to a decimal number, if the number is not too great. -/
def ofDecimal? (f : FloatFormat) (w : Written) : Option Nat :=
  let n := numeral 10 w.digits
  if n = 0 then some 0 else f.nearestPower? 10 n (w.cappedPower - w.behind)

/-- The bits of the float nearest to a hexadecimal number, if the number is not too great and its
exponent is a word of 32 bits. Of the digits that do not fit, the first is dropped, and the others
only break the tie between two floats that are equally near. -/
def ofHexadecimal? (f : FloatFormat) (w : Written) : Option Nat :=
  match w.digits.dropWhile (· = 0) with
  | [] => some 0
  | first :: rest =>
    let kept := (first :: rest).take f.hexDigits
    let dropped := (first :: rest).drop f.hexDigits
    let breaker := if dropped.tail.any (· ≠ 0) then 1 else 0
    let lead : Int := Nat.log2 first + 4 * ((rest.length : Int) - w.behind)
    if w.power < -2147483648 ∨ 2147483647 < w.power ∨ lead + w.power < -2147483648 then none
    else if lead + w.power < f.least - 1 then some 0
    else if (Nat.pow 2 f.exponentBits : Int) < lead + w.power then none
    else
      f.nearestPower? 2 (2 * numeral 16 kept + breaker)
        (w.power + 4 * ((dropped.length : Int) - w.behind) - 1)

end FloatFormat

/-- The bits of the float that a text spells. -/
def float? (f : FloatFormat) (text : String) : Option Nat := do
  let ⟨negative, rest⟩ := Signed.of text.toList
  let bits ← match rest with
    | ['i', 'n', 'f'] => some f.infinity
    | ['n', 'a', 'n'] => some f.nan
    | 'n' :: 'a' :: 'n' :: ':' :: '0' :: 'x' :: payload => (row? 16 payload).bind f.nanOf?
    | '0' :: 'x' :: rest => (Written.read? 16 ['p', 'P'] rest).bind f.ofHexadecimal?
    | rest => (Written.read? 10 ['e', 'E'] rest).bind f.ofDecimal?
  return if negative then bits + f.sign else bits

end Text

end Wasm

end GuestHost
