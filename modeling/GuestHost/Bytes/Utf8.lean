import GuestHost.Bytes
/-!
# UTF-8

Text as bytes and back. Strict reading accepts exactly the encodings of texts. Lenient reading
never fails: where the bytes are no text, it writes the replacement character once for each
longest start of a character that the bytes break off.
-/

namespace GuestHost

namespace Utf8

/-- The bytes of a text. -/
def encode (text : String) : Bytes := text.toUTF8.data.toList

/-- The text that bytes encode, if they encode one. -/
def decode? (bytes : Bytes) : Option String := String.fromUTF8? ⟨bytes.toArray⟩

/-- Whether `b` continues a character. -/
def isContinuation (b : UInt8) : Bool := 0x80 ≤ b && b ≤ 0xbf

/-- How many bytes a character that starts with `first` has, and what its second byte may be. -/
def lead? (first : UInt8) : Option (Nat × UInt8 × UInt8) :=
  if first < 0x80 then some (1, 0, 0)
  else if 0xc2 ≤ first && first ≤ 0xdf then some (2, 0x80, 0xbf)
  else if first = 0xe0 then some (3, 0xa0, 0xbf)
  else if first = 0xed then some (3, 0x80, 0x9f)
  else if 0xe1 ≤ first && first ≤ 0xef then some (3, 0x80, 0xbf)
  else if first = 0xf0 then some (4, 0x90, 0xbf)
  else if 0xf1 ≤ first && first ≤ 0xf3 then some (4, 0x80, 0xbf)
  else if first = 0xf4 then some (4, 0x80, 0x8f)
  else none

/-- How many bytes at the front belong to the first character or to the start of one, and
whether they make a whole character. -/
def front (first : UInt8) (rest : Bytes) : Nat × Bool :=
  match lead? first with
  | none => (1, false)
  | some (1, _, _) => (1, true)
  | some (width, low, high) =>
    match rest with
    | [] => (1, false)
    | second :: rest =>
      if low ≤ second && second ≤ high then
        let more := (rest.take (width - 2)).takeWhile isContinuation
        (2 + more.length, more.length == width - 2)
      else (1, false)

/-- The replacement character's bytes. -/
def replacement : Bytes := [0xef, 0xbf, 0xbd]

theorem one_le_front (first : UInt8) (rest : Bytes) : 1 ≤ (front first rest).1 := by
  unfold front
  split
  · simp
  · simp
  · split
    · simp
    · split
      · simp only; omega
      · simp

/-- The bytes with every broken character replaced. -/
def repair : Bytes → Bytes
  | [] => []
  | first :: rest =>
    let (count, whole) := front first rest
    (if whole then (first :: rest).take count else replacement) ++
      repair ((first :: rest).drop (front first rest).1)
termination_by bytes => bytes.length
decreasing_by
  have := one_le_front first rest
  simp only [List.length_drop, List.length_cons]
  omega

/-- Where bytes stop being text: the number of bytes in front that are text, and the number of
bytes of the character that is broken there, absent if the bytes end before it does. -/
structure Fault where
  start : Nat
  length : Option Nat
  deriving DecidableEq

/-- The words for a fault. -/
def Fault.message (fault : Fault) : String :=
  match fault.length with
  | some length =>
    "invalid utf-8 sequence of " ++ toString length ++ " bytes from index " ++
      toString fault.start
  | none => "incomplete utf-8 byte sequence from index " ++ toString fault.start

/-- The first fault of bytes that stand behind `start` bytes of text. -/
def faultFrom? (start : Nat) : Bytes → Option Fault
  | [] => none
  | first :: rest =>
    let (count, whole) := front first rest
    if whole then faultFrom? (start + count) ((first :: rest).drop (front first rest).1)
    else if count ≤ rest.length ∨ lead? first = none then some ⟨start, some count⟩
    else some ⟨start, none⟩
termination_by bytes => bytes.length
decreasing_by
  have := one_le_front first rest
  simp only [List.length_drop, List.length_cons]
  omega

/-- The first fault of bytes, if they are no text. -/
def fault? (bytes : Bytes) : Option Fault := faultFrom? 0 bytes

/-- The text of bytes, or where they stop being one. -/
def read (bytes : Bytes) : Except Fault String :=
  match decode? bytes with
  | some text => .ok text
  | none => .error ((fault? bytes).getD ⟨0, none⟩)

/-- The text of bytes, broken characters replaced. -/
def lossy (bytes : Bytes) : String :=
  match decode? bytes with
  | some text => text
  | none => (decode? (repair bytes)).getD ""

end Utf8

end GuestHost
