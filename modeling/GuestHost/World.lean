import GuestHost.Event
import GuestHost.Exchange.Registry
import GuestHost.Store.Blob
import GuestHost.Store.Persistence
import GuestHost.Wasm.Module
import GuestHost.Web
/-!
# The world of a host

Everything that host calls and invocations can change: the exchange registry, the store, the
compiled modules, and the log. The web and the clock are part of it too, though nothing here
changes them. An operation that a buffer does not support is noted in the log wherever it is
tried, and so is an operation that panics.
-/

namespace GuestHost

/-- The state that all invocations of a host share. -/
structure World where
  registry : Exchange.Registry
  shelf : Store.Shelf
  /-- The compiled modules by their content ids. -/
  modules : Table Store.ContentId Wasm.Module
  web : Web
  /-- Nanoseconds since 1970. -/
  clock : Nat
  log : Array Event

namespace World

/-- The world of a new host. -/
def fresh (web : Web) (clock : Nat) : World := ⟨.empty, .empty, .empty, web, clock, #[]⟩

/-- An event noted down. -/
def note (w : World) (event : Event) : World := { w with log := w.log.push event }

/-- Text from a guest noted down, with what is no UTF-8 replaced. -/
def hear (w : World) (text : Bytes) : World := w.note (.guest (Utf8.lossy text))

/-- The refusal or the panic that an outcome may be, noted down. -/
def noteRefusal {α : Type} (w : World) (outcome : Except Exchange.Error α) : World :=
  match outcome with
  | .error (.unsupported kind operation) => w.note (.unsupported kind operation)
  | .error .overfull => w.note .panicked
  | _ => w

/-- An operation on the buffer at a place. -/
def useAt {α : Type} (w : World) (place : Exchange.Place)
    (operation : Exchange.Buffer → Except Exchange.Error α × Exchange.Buffer) :
    Except Exchange.Error α × World :=
  let (outcome, registry) := w.registry.useAt place operation
  (outcome, { w with registry := registry }.noteRefusal outcome)

/-- An operation on the buffer of a handle. -/
def use {α : Type} (w : World) (handle : Nat)
    (operation : Exchange.Buffer → Except Exchange.Error α × Exchange.Buffer) :
    Except Exchange.Error α × World :=
  let (outcome, registry) := w.registry.use handle operation
  (outcome, { w with registry := registry }.noteRefusal outcome)

/-- An operation on the buffer of a handle that changes nothing. -/
def look {α : Type} (w : World) (handle : Nat)
    (operation : Exchange.Buffer → Except Exchange.Error α) : Except Exchange.Error α × World :=
  let outcome := w.registry.look handle operation
  (outcome, w.noteRefusal outcome)

/-- A buffer registered, and its handle. -/
def register (w : World) (buffer : Exchange.Buffer) : Nat × World :=
  (w.registry.nextHandle, { w with registry := w.registry.register buffer })

/-- An empty memory buffer registered, and its handle. -/
def create (w : World) : Nat × World := w.register (.memory (.ofContent []))

/-- A handle released, and whether it was live. -/
def release (w : World) (handle : Nat) : Bool × World :=
  (w.registry.isLive handle, { w with registry := w.registry.release handle })

/-- Accesses to the store. -/
def store {α : Type} (w : World) (access : Store.Blob.Access α) : Except Store.Error α × World :=
  let (outcome, shelf) := access w.shelf
  (outcome, { w with shelf := shelf })

/-- A request to the web, and the body it is answered with if it succeeds. -/
def fetch (w : World) (url : Url) : Option Bytes × World :=
  (w.web.fetch url, w.note (.request url.text))

/-- No operation has panicked. A panic ends the program, and what is said here about a world after
one says nothing about the program. -/
def Sound (w : World) : Prop := Event.panicked ∉ w.log

end World

end GuestHost
