import GuestHost.Link
import GuestHost.Loading
import GuestHost.Managed
import GuestHost.Platform
import GuestHost.Posix.Syscall
/-!
# Resolution of imports

Every module that a guest imports is settled by the first of four resolvers that applies to it: a
provider of the host, another guest of that name, the POSIX layer, the hooks of managed runtimes.
The resolver that applies has to bind every import of the module; no other is tried in its place.
-/

namespace GuestHost

/-- The functions that a guest imports: for each module, names and types. -/
abbrev Imports := Table String (Table String Wasm.FuncType)

/-- Imports with one more function. A later declaration of the same name replaces the earlier. -/
def Imports.add (imports : Imports) (module name : String) (type : Wasm.FuncType) : Imports :=
  imports.insert module (((imports.find? module).getD .empty).insert name type)

/-- Declared imports added to others. All of them have to be functions. -/
def Imports.collect : Imports → List Wasm.Import → Except Failure Imports
  | imports, [] => .ok imports
  | imports, i :: rest =>
    match i.type with
    | none => .error (.unresolvedImport i.module i.name)
    | some type => collect (imports.add i.module i.name type) rest

/-- The functions that a module imports. -/
def Imports.ofModule (module : Wasm.Module) : Except Failure Imports :=
  Imports.collect .empty module.imports

namespace Resolver

/-- The resolver that applies to an imported module. -/
def choose (platform : Platform) (shelf : Store.Shelf) (mode : Mode) (module : String) :
    Except Failure Resolver :=
  if platform.providers.contains module then .ok provider
  else
    match Store.Blob.hasAlias shelf module with
    | .error e => .error (.store e)
    | .ok true => .ok link
    | .ok false =>
      if mode = .posix ∧ module ∈ Posix.modules then .ok posix
      else if module = Managed.module then .ok managed
      else .error (.unresolvedModule module)

/-- The steps of a provider. -/
def provide (provider : Provider) (binder : Binder) : Setup Binder := do
  let (outcome, world) := provider.bind (← get) binder
  set world
  Setup.ofExcept outcome

/-- The command line of a POSIX guest. -/
def commandLine (platform : Platform) (context : Context) : List String :=
  context.program.getD platform.config.programName :: context.programArguments

/-- The imports of a module bound by a resolver. The POSIX layer binds the guest's process too. -/
def bind (platform : Platform) (context : Context) (process : Posix.Process) (binder : Binder) :
    Resolver → Setup (Binder × Posix.Process)
  | .provider => do
    let provider := (platform.providers.find? binder.module).getD ⟨.done⟩
    return (← provide provider binder, process)
  | .link => do
    if let some e := Link.cycle? context.chain binder.module then throw e
    let target ← Loading.load binder.module
    return (← Setup.ofExcept (Link.bind target binder), process)
  | .posix => do
    let process :=
      process.bind (← get).registry context.toInvocation (commandLine platform context)
    return (← provide (Posix.provider binder.importedNames) binder, process)
  | .managed => do
    return (← provide (Managed.provider binder.importedNames) binder, process)

/-- One imported module settled. -/
def settle (platform : Platform) (context : Context) (module : String)
    (types : Table String Wasm.FuncType) (linker : Linker) (process : Posix.Process) :
    Setup (Linker × Posix.Process) := do
  let resolver ← Setup.ofExcept (choose platform (← get).shelf context.mode module)
  let (binder, process) ← resolver.bind platform context process (.new linker module types)
  if context.trace then modify fun world => world.note (.resolved module resolver)
  return (← Setup.ofExcept binder.finish, process)

/-- Imported modules settled one after the other. -/
def settleAll (platform : Platform) (context : Context) :
    List (String × Table String Wasm.FuncType) → Linker → Posix.Process →
      Setup (Linker × Posix.Process)
  | [], linker, process => return (linker, process)
  | (module, types) :: rest, linker, process => do
    let (linker, process) ← settle platform context module types linker process
    settleAll platform context rest linker process

end Resolver

end GuestHost
