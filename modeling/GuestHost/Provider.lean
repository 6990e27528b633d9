import GuestHost.Binder
/-!
# Providers

A provider serves one imported module. It binds functions one after the other, and it may look at
what the guest imports and go on by what it sees, by what came of a function that it has tried to
bind, or not at all. What it sees is all that it goes by: it cannot look at the linker, and what
one guest imports tells it nothing of another.
-/

namespace GuestHost

/-- One thing a provider does to bind a module. A look at the imports by name is noted down. -/
inductive Binding where
  | typed (name : String) (signature : Signature) (handler : Handler)
  | declared (name : String) (handler : Handler)
  | unimplemented (name : String)
  | inspect (name : String)

/-- What a provider goes through: it ends well or with a failure, of its own or of a binding; it
binds and goes on by the outcome; or it looks at the imports and goes on by them. -/
inductive Plan where
  | done
  | refuse (failure : Failure)
  | bind (binding : Binding) (next : Except Failure Unit → Plan)
  | look (next : Binder.View → Plan)

namespace Plan

/-- Bindings one after the other, up to the first that fails. -/
def ofList : List Binding → Plan
  | [] => done
  | binding :: rest =>
    bind binding fun
      | .ok () => ofList rest
      | .error e => refuse e

instance : Coe (List Binding) Plan := ⟨ofList⟩

/-- One binding carried out. -/
def step (world : World) (binder : Binder) : Binding → Except Failure Binder × World
  | .typed name signature handler => (binder.bind name signature (.handler handler), world)
  | .declared name handler => (binder.bindDeclared name (.handler handler), world)
  | .unimplemented name => (binder.bindUnimplemented name, world)
  | .inspect name =>
    (.ok binder, world.note
      (.binder binder.module (binder.importsName name) binder.importedNames binder.unbound))

/-- A plan carried out. A binding that fails leaves the binder as it is. -/
def run : Plan → World → Binder → Except Failure Binder × World
  | done, world, binder => (.ok binder, world)
  | refuse e, world, _ => (.error e, world)
  | bind binding next, world, binder =>
    match step world binder binding with
    | (.ok binder, world) => (next (.ok ())).run world binder
    | (.error e, world) => (next (.error e)).run world binder
  | look next, world, binder => (next binder.view).run world binder

end Plan

/-- A provider. -/
structure Provider where
  plan : Plan

/-- The imports of a module bound by a provider. -/
def Provider.bind (p : Provider) (world : World) (binder : Binder) :
    Except Failure Binder × World :=
  p.plan.run world binder

end GuestHost
