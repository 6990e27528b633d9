import GuestHost.Bytes.Utf8
/-!
# Request targets

What stands after the method in an HTTP request: a path with an optional query, `*`, an absolute
URI, or an authority alone. `path?` is the target's path, if the target is well formed.
-/

namespace GuestHost

namespace Exchange

namespace Target

/-- Whether a byte ends an authority. -/
def endsAuthority (b : UInt8) : Bool := b == 47 || b == 63 || b == 35

/-- Whether a byte may stand in an authority, the percent sign apart. -/
def isAuthorityByte (b : UInt8) : Bool :=
  let n := b.toNat
  n == 33 || (35 ≤ n && n ≤ 36) || (38 ≤ n && n ≤ 59) || n == 61 || (63 ≤ n && n ≤ 91) ||
    n == 93 || n == 95 || (97 ≤ n && n ≤ 122) || n == 126

/-- Whether a byte may stand in a path. Bytes of longer characters are taken as they come. -/
def isPathByte (b : UInt8) : Bool :=
  let n := b.toNat
  (33 ≤ n && n ≤ 59 && n ≠ 35) || n == 61 || (64 ≤ n && n ≤ 95) || (97 ≤ n && n ≠ 127)

/-- Whether a byte may stand in a query. -/
def isQueryByte (b : UInt8) : Bool :=
  let n := b.toNat
  n == 33 || (36 ≤ n && n ≤ 59) || n == 61 || (63 ≤ n && n ≠ 127)

/-- What is known of an authority while it is read. -/
structure Scan where
  /-- Colons since the last bracket or at sign. -/
  colons : Nat
  opened : Bool
  closed : Bool
  /-- A percent sign since the last bracket or at sign. -/
  percent : Bool
  /-- The last byte was an at sign. -/
  atLast : Bool

/-- The number of colons that no part of an authority passes. -/
def maxColons : Nat := 8

/-- An authority read on by one byte. -/
def Scan.next? (s : Scan) (b : UInt8) : Option Scan :=
  let s := { s with atLast := false }
  if b = 58 then
    if s.colons < maxColons then some { s with colons := s.colons + 1 } else none
  else if b = 91 then
    if s.percent || s.opened then none else some { s with opened := true }
  else if b = 93 then
    if !s.opened || s.closed then none
    else some { s with closed := true, colons := 0, percent := false }
  else if b = 64 then some { s with colons := 0, percent := false, atLast := true }
  else if b = 37 then some { s with percent := true }
  else if isAuthorityByte b then some s
  else none

/-- Whether bytes are an authority, which is never empty. -/
def isAuthority (bytes : Bytes) : Bool :=
  match bytes.foldlM Scan.next? ⟨0, false, false, false, false⟩ with
  | none => false
  | some s => bytes ≠ [] && s.opened == s.closed && s.colons ≤ 1 && !s.percent && !s.atLast

/-- The path of a path with a query and a fragment behind it. An empty path reads as a slash. -/
def pathOf? (bytes : Bytes) : Option Bytes :=
  let path := bytes.takeWhile fun b => b ≠ 63 && b ≠ 35
  let query := match bytes.drop path.length with
    | 63 :: rest => rest.takeWhile (· ≠ 35)
    | _ => []
  if path.all isPathByte && query.all isQueryByte then some (if path = [] then [47] else path)
  else none

/-- Whether a byte may stand in the name of a scheme. -/
def isSchemeByte (b : UInt8) : Bool :=
  let n := b.toNat
  (48 ≤ n && n ≤ 57) || (65 ≤ n && n ≤ 90) || (97 ≤ n && n ≤ 122) || n == 43 || n == 45 ||
    n == 46 || n == 126

/-- What follows the scheme of an absolute URI. -/
def afterScheme? (bytes : Bytes) : Option Bytes :=
  let name := bytes.takeWhile isSchemeByte
  if name.length ≤ 64 then Bytes.after? [58, 47, 47] (bytes.drop name.length) else none

/-- The longest target. -/
def maxLength : Nat := 65534

/-- The path of a target. -/
def path? (target : Bytes) : Option Bytes :=
  if target.length > maxLength then none
  else if target = [42] then some target
  else
    match target with
    | [] => none
    | 47 :: _ => pathOf? target
    | _ =>
      match afterScheme? target with
      | some rest =>
        let authority := rest.takeWhile fun b => !endsAuthority b
        if isAuthority authority then pathOf? (rest.drop authority.length) else none
      | none => if isAuthority target && !target.any endsAuthority then some [] else none

end Target

end Exchange

end GuestHost
