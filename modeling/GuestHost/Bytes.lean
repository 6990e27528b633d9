/-!
# Bytes

Byte strings are lists of bytes. This file holds the word encodings that guests and hosts
exchange: little-endian words of any width, and additions of guest addresses, which stop at the
greatest 32-bit word instead of wrapping.
-/

namespace GuestHost

/-- A byte string. -/
abbrev Bytes := List UInt8

namespace Bytes

/-- The `width` low bytes of `value`, least significant first. -/
def ofWord : Nat → Nat → Bytes
  | 0, _ => []
  | width + 1, value => UInt8.ofNat value :: ofWord width (value / 256)

/-- The number that a byte string spells, least significant byte first. -/
def toWord : Bytes → Nat
  | [] => 0
  | b :: rest => b.toNat + 256 * toWord rest

@[simp] theorem length_ofWord (width value : Nat) : (ofWord width value).length = width := by
  induction width generalizing value with
  | zero => rfl
  | succ n ih => simp [ofWord, ih]

/-- **A word that fits is read back.** -/
theorem toWord_ofWord (width value : Nat) :
    toWord (ofWord width value) = value % Nat.pow 256 width := by
  induction width generalizing value with
  | zero => simp [ofWord, toWord, Nat.mod_one]
  | succ n ih =>
    have byte : (UInt8.ofNat value).toNat = value % 256 := by simp
    have wider : Nat.pow 256 (n + 1) = 256 * Nat.pow 256 n := Nat.mul_comm _ _
    rw [ofWord, toWord, ih, byte, wider, Nat.mod_mul]

/-- What is left of `text` after `start`, if it starts so. -/
def after? : Bytes → Bytes → Option Bytes
  | [], text => some text
  | _ :: _, [] => none
  | s :: start, t :: text => if s = t then after? start text else none

end Bytes

/-- The greatest 32-bit word. -/
def maxWord : Nat := 4294967295

/-- The sum of two guest addresses, held at the greatest 32-bit word. -/
def satAdd (a b : Nat) : Nat := min (a + b) maxWord

/-- The product of two guest words, held at the greatest 32-bit word. -/
def satMul (a b : Nat) : Nat := min (a * b) maxWord

end GuestHost
