import GuestHost.Web.Percent
/-!
# Paths of addresses

A path is a list of segments with a slash in front of each. A segment of one dot stands for the
segment itself and one of two dots for the segment before; resolving leaves neither. A segment
that is a letter and a colon, the name of a drive, is never taken back.
-/

namespace GuestHost

namespace Path

/-- A segment. -/
abbrev Segment := List Char

/-- Characters split at every one that `isMark` holds of. -/
def split (isMark : Char → Bool) : List Char → List Segment
  | [] => [[]]
  | c :: rest =>
    match split isMark rest with
    | [] => [[]]
    | head :: tail => if isMark c then [] :: head :: tail else (c :: head) :: tail

/-- Whether a character stands for itself in a path. -/
def keeps (c : Char) : Bool :=
  '!' ≤ c && c ≤ '~' && !(['"', '#', '<', '>', '?', Char.ofNat 96, '\x7b', '\x7d'].contains c)

/-- Whether a segment stands for itself. -/
def isDot (segment : Segment) : Bool :=
  [".", "%2e"].contains ((String.ofList segment).map Char.toLower)

/-- Whether a segment stands for the segment before. -/
def isDoubleDot (segment : Segment) : Bool :=
  ["..", ".%2e", "%2e.", "%2e%2e"].contains ((String.ofList segment).map Char.toLower)

/-- Whether a segment is the name of a drive. -/
def isDrive : Segment → Bool
  | [letter, mark] => letter.isAlpha && (mark == ':' || mark == '|')
  | _ => false

/-- Segments in reverse without the last, the name of a drive apart. -/
def back : List Segment → List Segment
  | [] => []
  | last :: before => if isDrive last then last :: before else before

/-- Segments with their dots resolved, on top of those before them in reverse. -/
def resolve : List Segment → List Segment → List Segment
  | before, [] => before.reverse
  | before, [last] =>
    if isDoubleDot last then ([] :: back before).reverse
    else if isDot last then ([] :: before).reverse
    else (last :: before).reverse
  | before, segment :: rest =>
    if isDoubleDot segment then resolve (back before) rest
    else if isDot segment then resolve before rest
    else resolve (segment :: before) rest

/-- The text of segments, the characters that may not stand in a path written in digits. -/
def text (segments : List Segment) : String :=
  String.ofList (segments.flatMap fun segment => '/' :: Percent.encode keeps segment)

/-- The segments that characters spell; a slash in front adds none. -/
def segments (isSlash : Char → Bool) (cs : List Char) : List Segment :=
  let cs := match cs with
    | [] => []
    | c :: rest => if isSlash c then rest else c :: rest
  resolve [] (split isSlash cs)

/-- Whether a character is a slash in the schemes of the web, which take either slash. -/
def isSlash (c : Char) : Bool := c == '/' || c == '\\'

/-- The path of an address of the web. -/
def ofWeb (cs : List Char) : String := text (segments isSlash cs)

/-- The path of a file: the name of a drive in front has a colon, and no segment in front is
empty. -/
def ofFile (cs : List Char) : String :=
  let all := match segments isSlash cs with
    | first :: rest => (if isDrive first then first.take 1 ++ [':'] else first) :: rest
    | [] => []
  match all.dropWhile (· = []) with
  | [] => text [[]]
  | all => text all

/-- The path of an address of another scheme, which may be empty. -/
def elsewhere : List Char → String
  | [] => ""
  | cs => text (segments (· == '/') cs)

end Path

end GuestHost
