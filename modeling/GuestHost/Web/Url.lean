import GuestHost.Web.Host
import GuestHost.Web.Path
/-!
# Addresses on the web

An address has a scheme, and behind it an authority and a path, with a query and a fragment behind
them. Reading drops blanks around the address and line breaks within. An address of one of the
schemes of the web has to name a host, one of a file may, and the schemes that are neither take
what stands behind them for a path unless it starts with two slashes.
-/

namespace GuestHost

/-- An address, its parts written as they are sent. -/
structure Url where
  scheme : String
  /-- The host and the port, if the address has an authority. -/
  authority : Option (String × Option Nat)
  path : String
  query : Option String
  deriving DecidableEq

namespace Url

/-- The schemes of the web, with their usual ports. -/
def defaultPorts : List (String × Nat) :=
  [("http", 80), ("https", 443), ("ws", 80), ("wss", 443), ("ftp", 21)]

/-- Whether a character stands for itself in a query. -/
def keepsQuery (c : Char) : Bool :=
  '!' ≤ c && c ≤ '~' && !(['"', '#', '<', '>', '\''].contains c)

/-- Whether a character stands for itself in a path that does not start with a slash. -/
def keepsOpaque (c : Char) : Bool := ' ' ≤ c && c ≤ '~'

/-- The host of an authority and what stands behind the colon of its port, if there is one. A
colon in brackets is the host's. -/
def hostAndPort : Bool → List Char → List Char × Option (List Char)
  | _, [] => ([], none)
  | inside, c :: rest =>
    if c = ':' ∧ !inside then ([], some rest)
    else
      let (host, port) := hostAndPort ((inside || c == '[') && c != ']') rest
      (c :: host, port)

/-- A port, absent if nothing is written. -/
def port? : List Char → Option (Option Nat)
  | [] => some none
  | cs => do
    let n ← Host.decimal? cs
    if n < 65536 then some (some n) else none

/-- What stands in front of the last at sign, if there is one, and what behind it. -/
def userAndHost (cs : List Char) : Option (List Char) × List Char :=
  let host := (cs.reverse.takeWhile (· ≠ '@')).reverse
  if host.length = cs.length then (none, cs)
  else (some (cs.take (cs.length - host.length - 1)), host)

/-- The host and the port of an authority of the web, the usual port left out. -/
def ofWeb? (usual : Nat) (cs : List Char) : Option (String × Option Nat) := do
  let (host, port) := hostAndPort false (userAndHost cs).2
  let host ← Host.ofWeb? host
  let port ← port? (port.getD [])
  return (host, if port = some usual then none else port)

/-- The host and the port of an authority of another scheme, and what a backslash behind the port
leaves for the path. An empty host has no port and no user; `alone` says that nothing follows. -/
def elsewhere? (alone : Bool) (cs : List Char) :
    Option ((String × Option Nat) × List Char) := do
  let (user, rest) := userAndHost cs
  let (host, port) := hostAndPort false rest
  let isNamed := user.any fun user =>
    if user = [] then !alone || rest ≠ [] else user ≠ [':']
  if host = [] && (port.isSome || isNamed) then none
  let host ← Host.elsewhere? host
  let digits := port.getD []
  let port ← port? (digits.takeWhile (· ≠ '\\'))
  return ((host, port), digits.dropWhile (· ≠ '\\'))

/-- The address of a scheme of the web. -/
def webOf? (scheme : String) (usual : Nat) (body : List Char) (query : Option String) :
    Option Url := do
  let body := body.dropWhile Path.isSlash
  let authority := body.takeWhile fun c => !Path.isSlash c
  let path := Path.ofWeb (body.drop authority.length)
  return ⟨scheme, some (← ofWeb? usual authority), path, query⟩

/-- The address of a file. The local host is left out, and the name of a drive is no host. -/
def fileOf? (body : List Char) (query : Option String) : Option Url :=
  match body with
  | a :: b :: rest =>
    if Path.isSlash a && Path.isSlash b then
      let host := rest.takeWhile fun c => !Path.isSlash c
      if host = [] || Path.isDrive host then some ⟨"file", some ("", none), Path.ofFile rest, query⟩
      else do
        let name ← Host.ofWeb? host
        let path := Path.ofFile (rest.drop host.length)
        return ⟨"file", some (if name = "localhost" then "" else name, none), path, query⟩
    else some ⟨"file", some ("", none), Path.ofFile body, query⟩
  | _ => some ⟨"file", some ("", none), Path.ofFile body, query⟩

/-- The address of another scheme. -/
def otherOf? (scheme : String) (body : List Char) (query : Option String) (alone : Bool) :
    Option Url :=
  match body with
  | '/' :: '/' :: rest => do
    let authority := rest.takeWhile (· ≠ '/')
    let behind := rest.drop authority.length
    let (authority, more) ← elsewhere? (alone && behind = []) authority
    return ⟨scheme, some authority, Path.elsewhere (more ++ behind), query⟩
  | '/' :: _ => some ⟨scheme, none, Path.elsewhere body, query⟩
  | _ => some ⟨scheme, none, String.ofList (Percent.encode keepsOpaque body), query⟩

/-- Whether a character may stand in the name of a scheme. -/
def isSchemeChar (c : Char) : Bool := c.isAlphanum || c == '+' || c == '-' || c == '.'

/-- The address that a text spells. -/
def parse? (text : String) : Option Url := do
  let isBlank := fun c : Char => c.toNat ≤ 32
  let cs := ((text.toList.dropWhile isBlank).reverse.dropWhile isBlank).reverse
  let cs := cs.filter fun c => c ≠ '\t' && c ≠ '\n' && c ≠ '\r'
  let name := cs.takeWhile isSchemeChar
  if !(name.head?.any Char.isAlpha) then none
  let scheme := (String.ofList name).map Char.toLower
  match cs.drop name.length with
  | ':' :: rest =>
    let beforeFragment := rest.takeWhile (· ≠ '#')
    let body := beforeFragment.takeWhile (· ≠ '?')
    let query := match beforeFragment.drop body.length with
      | _ :: query => some (String.ofList (Percent.encode keepsQuery query))
      | [] => none
    if scheme = "file" then fileOf? body query
    else
      match defaultPorts.lookup scheme with
      | some usual => webOf? scheme usual body query
      | none => otherOf? scheme body query (body.length = rest.length)
  | _ => none

/-- An address as it is sent. -/
def text (u : Url) : String :=
  u.scheme ++ ":" ++
    (match u.authority with
      | some (host, some port) => "//" ++ host ++ ":" ++ toString port
      | some (host, none) => "//" ++ host
      | none => "") ++ u.path ++
    (match u.query with
      | some query => "?" ++ query
      | none => "")

end Url

end GuestHost
