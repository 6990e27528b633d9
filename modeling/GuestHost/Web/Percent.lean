import GuestHost.Bytes.Hex
import GuestHost.Bytes.Utf8
/-!
# Percent-encoding

A byte written as `%` and two digits. Writing spells the bytes of the characters that may not stand
for themselves, with upper-case digits; reading takes digits of either case and leaves a percent
sign that no two digits follow as it is.
-/

namespace GuestHost

namespace Percent

/-- The upper-case hexadecimal digit of a number below sixteen. -/
def digit (n : Nat) : Char := if n < 10 then Char.ofNat (48 + n) else Char.ofNat (55 + n)

/-- A byte as `%` and two digits. -/
def ofByte (b : UInt8) : List Char := ['%', digit (b.toNat / 16), digit (b.toNat % 16)]

/-- Characters, those that `keep` refuses written in digits. -/
def encode (keep : Char → Bool) (cs : List Char) : List Char :=
  cs.flatMap fun c => if keep c then [c] else (Utf8.encode c.toString).flatMap ofByte

/-- The bytes of a text, those written in digits read. -/
def decode : Bytes → Bytes
  | [] => []
  | b :: high :: low :: rest =>
    match Hex.value? (Char.ofNat high.toNat), Hex.value? (Char.ofNat low.toNat) with
    | some h, some l =>
      if b = 37 then UInt8.ofNat (16 * h + l) :: decode rest else b :: decode (high :: low :: rest)
    | _, _ => b :: decode (high :: low :: rest)
  | b :: rest => b :: decode rest

end Percent

end GuestHost
