import GuestHost.Failure
import GuestHost.Wasm.Text
import GuestHost.World
/-!
# Loading guests

A guest is found through its alias and compiled from the blob that the alias points at. What has
been compiled is kept under its content id and not compiled again.
-/

namespace GuestHost

/-- A computation that readies a guest; it may change the world and it may fail. -/
abbrev Setup (α : Type) := ExceptT Failure (StateM World) α

namespace Setup

/-- The outcome of a computation that changes nothing. -/
def ofExcept {α : Type} : Except Failure α → Setup α
  | .ok value => pure value
  | .error e => throw e

end Setup

namespace Loading

/-- The content type of guests. -/
def contentType : String := "application/wasm"

/-- The content id that an alias stands for. -/
def resolve (shelf : Store.Shelf) (guest : String) : Except Failure Store.ContentId :=
  match Store.Blob.resolve shelf guest with
  | .ok id => .ok id
  | .error (.notFound _) => .error (.guestNotFound guest)
  | .error e => .error (.store e)

/-- The module compiled from the blob of a content id. -/
def compile (shelf : Store.Shelf) (guest : String) (id : Store.ContentId) :
    Except Failure Wasm.Module :=
  match Store.Blob.abstractOf shelf id with
  | .error e => .error (.store e)
  | .ok abstract =>
    if abstract.contentType ≠ contentType then
      .error (.unsupportedContentType guest abstract.contentType)
    else
      match Store.Blob.bytesOf shelf id with
      | .error e => .error (.store e)
      | .ok bytes =>
        match Wasm.Module.ofBytes? bytes with
        | some module => .ok module
        | none => .error (.compile guest)

/-- The module that an alias stands for. -/
def load (guest : String) : Setup Wasm.Module := do
  let id ← Setup.ofExcept (resolve (← get).shelf guest)
  match (← get).modules.find? id with
  | some module => return module
  | none =>
    let module ← Setup.ofExcept (compile (← get).shelf guest id)
    modify fun world => { world with modules := world.modules.insert id module }
    return module

end Loading

end GuestHost
