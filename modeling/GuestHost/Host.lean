import GuestHost.Invocation
/-!
# Hosts

A host keeps everything that its guests share and runs guests for its owner. An operation that
fails leaves what it has changed before as it is.
-/

namespace GuestHost

/-- A host. -/
structure Host where
  platform : Platform
  world : World

namespace Host

/-- A new host, with the core functions and an empty store. -/
def new (config : Config) (web : Web) (clock : Nat) : Host :=
  ⟨.standard config, .fresh web clock⟩

/-- The host with a provider for a module, in place of any that it had. -/
def registerProvider (h : Host) (module : String) (provider : Provider) : Host :=
  { h with platform := h.platform.withProvider module provider }

/-- Whether there is a provider for a module. -/
def hasProvider (h : Host) (module : String) : Bool := h.platform.providers.contains module

/-- Accesses to the host's store. -/
def store {α : Type} (h : Host) (access : Store.Blob.Access α) : Except Store.Error α × Host :=
  let (outcome, world) := h.world.store access
  (outcome, { h with world := world })

/-- A computation that changes the host's world. -/
def perform {α : Type} (h : Host) (setup : Setup α) : Except Failure α × Host :=
  let (outcome, world) := setup.run h.world
  (outcome, { h with world := world })

/-- A guest stored and an alias pointed at it. -/
def registerGuest (h : Host) (guest : String) (code : Bytes) :
    Except Failure Store.ContentId × Host :=
  match h.store (Store.Blob.registerNamed guest Loading.contentType code) with
  | (.ok id, h) => (.ok id, h)
  | (.error e, h) => (.error (.store e), h)

/-- The number of compiled modules that the host keeps. -/
def cachedModules (h : Host) : Nat := h.world.modules.size

/-- A sandbox prepared for a context. -/
def prepare (h : Host) (context : Context) : Except Failure Sandbox × Host :=
  h.perform (Sandbox.prepare h.platform context)

/-- A prepared sandbox run: its context with what came of it. -/
def run (h : Host) (sandbox : Sandbox) : Except Failure Context × Host :=
  h.perform (sandbox.execute h.platform)

/-- A guest invoked for a context: the context with what came of it. -/
def invoke (h : Host) (context : Context) : Except Failure Context × Host :=
  h.perform
    (Invocation.invoke h.platform (Invocation.levels h.platform context.depth) context)

end Host

end GuestHost
