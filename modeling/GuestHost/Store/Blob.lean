import GuestHost.Bytes.Digest
import GuestHost.Store.Abstract
import GuestHost.Store.Shelf
/-!
# Blobs

A blob is stored under its content id, the digest of its bytes in hexadecimal: an abstract under
one key and the bytes under another. Names point at content ids; registering a name again points
it at the new content. Every operation returns the store as it is afterwards, so the accesses that
succeeded before one that failed have taken effect.
-/

namespace GuestHost

namespace Store

/-- The content address of a blob, as text. -/
abbrev ContentId := String

namespace Blob

/-- The content id of bytes. -/
def idOf (bytes : Bytes) : ContentId := Hex.encode (Digest.sha256 bytes)

/-- The key of a blob's abstract. -/
def abstractKey (id : ContentId) : Bytes := Utf8.encode ("/blobs/byid/" ++ id ++ "/abstract")

/-- The key of a blob's bytes. -/
def bytesKey (id : ContentId) : Bytes := Utf8.encode ("/blobs/byid/" ++ id ++ "/bytes")

/-- The start of every name's key. -/
def nameSpace : Bytes := Utf8.encode "/blobs/byname/"

/-- The key of a name. -/
def nameKey (name : String) : Bytes := nameSpace ++ Utf8.encode name

/-- Accesses to the store, one after the other: those before a failure have taken effect. -/
abbrev Access (α : Type) := Shelf → Except Error α × Shelf

/-- A value put under a key. -/
def put (key value : Bytes) : Access Unit := fun s =>
  match s.put key value with
  | .ok s => (.ok (), s)
  | .error e => (.error e, s)

/-- Bytes stored, and their content id. Known bytes are stored again only if their content type
changes, and then only their abstract is. -/
def register (contentType : String) (bytes : Bytes) : Access ContentId := fun s =>
  let id := idOf bytes
  let abstract : Abstract := ⟨contentType, bytes.length⟩
  match s.get (abstractKey id) with
  | .error e => (.error e, s)
  | .ok (some stored) =>
    match Abstract.read? stored with
    | none => (.error .json, s)
    | some known =>
      if known = abstract then (.ok id, s)
      else
        match put (abstractKey id) abstract.render s with
        | (.error e, s) => (.error e, s)
        | (.ok (), s) => (.ok id, s)
  | .ok none =>
    match put (abstractKey id) abstract.render s with
    | (.error e, s) => (.error e, s)
    | (.ok (), s) =>
      match put (bytesKey id) bytes s with
      | (.error e, s) => (.error e, s)
      | (.ok (), s) => (.ok id, s)

/-- Bytes stored and a name pointed at them. -/
def registerNamed (name contentType : String) (bytes : Bytes) : Access ContentId := fun s =>
  match register contentType bytes s with
  | (.error e, s) => (.error e, s)
  | (.ok id, s) =>
    match put (nameKey name) (Utf8.encode id) s with
    | (.error e, s) => (.error e, s)
    | (.ok (), s) => (.ok id, s)

/-- The content id that a name points at. -/
def resolveAlias (s : Shelf) (name : String) : Except Error ContentId := do
  match ← s.get (nameKey name) with
  | none => throw (.notFound name)
  | some id =>
    match Utf8.read id with
    | .ok id => return id
    | .error fault =>
      throw (.backend ("alias '" ++ name ++ "' holds a non-utf8 id: " ++ fault.message))

/-- Whether a name points anywhere. -/
def hasAlias (s : Shelf) (name : String) : Except Error Bool := do
  return (← s.get (nameKey name)).isSome

/-- The start of a reference that gives a content id outright. -/
def idScheme : Bytes := Utf8.encode "techID://"

/-- The content id that a reference gives, or the one that it names. -/
def resolve (s : Shelf) (reference : String) : Except Error ContentId :=
  match (Bytes.after? idScheme (Utf8.encode reference)).bind Utf8.decode? with
  | some id => .ok id
  | none => resolveAlias s reference

/-- The abstract of a blob. -/
def abstractOf (s : Shelf) (id : ContentId) : Except Error Abstract := do
  match ← s.get (abstractKey id) with
  | none => throw (.notFound id)
  | some stored =>
    match Abstract.read? stored with
    | some abstract => return abstract
    | none => throw .json

/-- The bytes of a blob. -/
def bytesOf (s : Shelf) (id : ContentId) : Except Error Bytes := do
  match ← s.get (bytesKey id) with
  | none => throw (.notFound id)
  | some bytes => return bytes

/-- Every name with the content id it points at, in the order of the names. -/
def names (s : Shelf) : Except Error (List (String × ContentId)) := do
  return (← s.scan nameSpace).map fun (key, id) =>
    (Utf8.lossy (key.drop nameSpace.length), Utf8.lossy id)

end Blob

end Store

end GuestHost
