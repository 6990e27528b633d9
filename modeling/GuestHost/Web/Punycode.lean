/-!
# Names in ASCII

A name with characters beyond ASCII may be written in ASCII: its ASCII characters first, then,
behind the last hyphen, the others in the order of their numbers, each as the distance from the
one before. A distance is a number in base 36 whose digits end at the first that is below a
threshold, and the thresholds follow the distances read so far.
-/

namespace GuestHost

namespace Punycode

/-- The value of a digit. -/
def value? (c : Char) : Option Nat :=
  if 'a' ≤ c ∧ c ≤ 'z' then some (c.toNat - 97)
  else if 'A' ≤ c ∧ c ≤ 'Z' then some (c.toNat - 65)
  else if '0' ≤ c ∧ c ≤ '9' then some (c.toNat - 22)
  else none

/-- The threshold of the digit at a place. -/
def threshold (place bias : Nat) : Nat :=
  if place ≤ bias then 1 else if bias + 26 ≤ place then 26 else place - bias

/-- A distance brought down, and how far the bias goes up with it. -/
def damp (distance bias : Nat) : Nat × Nat :=
  if 455 < distance then damp (distance / 35) (bias + 36) else (distance, bias)
termination_by distance
decreasing_by exact Nat.div_lt_self (by omega) (by omega)

/-- The bias after a distance. -/
def adapt (distance count : Nat) (first : Bool) : Nat :=
  let distance := if first then distance / 700 else distance / 2
  let (distance, bias) := damp (distance + distance / count) 0
  bias + 36 * distance / (distance + 38)

/-- A name that is being read. -/
structure Reading where
  /-- The numbers of the characters read so far. -/
  name : List Nat
  character : Nat
  /-- Where the next character goes. -/
  position : Nat
  bias : Nat
  /-- The distance that is being read, the weight of its next digit and the digit's place. -/
  distance : Nat
  weight : Nat
  place : Nat

/-- A name read on by one digit. -/
def Reading.next? (r : Reading) (c : Char) : Option Reading := do
  let value ← value? c
  let distance := r.distance + value * r.weight
  let t := threshold r.place r.bias
  if 4294967296 ≤ r.position + distance then none
  if t ≤ value then
    return { r with distance := distance, weight := r.weight * (36 - t), place := r.place + 36 }
  let count := r.name.length + 1
  let character := r.character + (r.position + distance) / count
  let position := (r.position + distance) % count
  if !character.isValidChar then none
  return ⟨r.name.take position ++ character :: r.name.drop position, character, position + 1,
    adapt distance count (r.name.all (· < 128)), 0, 1, 36⟩

/-- The numbers of the characters of a name written in ASCII. -/
def decode? (cs : List Char) : Option (List Nat) := do
  let behind := (cs.reverse.takeWhile (· ≠ '-')).reverse
  let front := cs.take (cs.length - behind.length - 1)
  let digits := if front = [] then cs else behind
  let r ← digits.foldlM Reading.next? ⟨front.map Char.toNat, 128, 0, 72, 0, 1, 36⟩
  if r.weight = 1 then some r.name else none

end Punycode

end GuestHost
